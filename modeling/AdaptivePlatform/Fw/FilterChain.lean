import Mathlib.Tactic
import AdaptivePlatform.Fw.KernelFilter

/-!
# The rules of the filter chain

`FWFilterChain::AllRulesCheck` goes through the rule entries of a configuration and
writes the values of the application layer rules to the parameters of the kernel
module, to each parameter all the values collected for it. The vectors in which the
values are collected are members of the chain: both directions push into the same ones,
and nothing empties them. A parameter is an `int` and takes one value; a text of several
values is refused and the parameter keeps its value.

A rule whose value is not a number ends the process, since `std::stoi` throws in a
function that is `noexcept`; such a run has no result here. The rules of the layers
below are handed to `nft` and have no effect on the parameters.
-/
namespace AdaptivePlatform.Fw

open List Option

def isSpace (c : Char) : Bool := [' ', '\t', '\n', '\x0b', '\x0c', '\r'].contains c

/-- `std::stoi`: blanks, a sign, digits; what follows is not looked at. -/
def stoi (text : String) : Option s32 :=
  let chars := text.toList.dropWhile isSpace
  let unsigned := if chars.head? = some '-' ∨ chars.head? = some '+' then chars.tail else chars
  let digits := unsigned.takeWhile Char.isDigit
  let value : ℤ := digits.foldl (fun n c => 10 * n + (c.toNat - '0'.toNat : ℕ)) 0
  let value := if chars.head? = some '-' then -value else value
  if digits = [] ∨ value < -2 ^ 31 ∨ 2 ^ 31 ≤ value then none else some (BitVec.ofInt 32 value)

def flag (text : String) : Option s32 := some (if text = "true" then 1 else 0)

/-- The vectors of the chain. -/
inductive Member
  | clientid | lengthVerify | majorVersion | messageType | methodId | protocolVersion | returnCode
  | serviceInterfaceId
  | entryType | eventGroupId | maxMajorVersion | maxMinorVersion | minMajorVersion
  | minMinorVersion | serviceInstanceId | sdServiceInterfaceId
  | destMaxAddr | destMinAddr | inverseProtocolVersion | doipProtocolVersion | payloadType
  | payloadLength | srcMaxAddress | srcMinAddress | udsService
  | appId | hostId | instanceId | majorProtocolVersion | minorProtocolVersion | protocolId
  | readerEntityId | writerEntityId | submessageType | vendorId
  deriving DecidableEq

structure RuleParse where
  ruleName : String
  ruleValue : String

/-- The application layer rules of `PFirewallRule`. -/
structure FirewallRule where
  vecSomeIpRules : List RuleParse := []
  vecSomeIpSdRules : List RuleParse := []
  vecDdsRules : List RuleParse := []
  vecDoIpRules : List RuleParse := []

structure FirewallRuleProps where
  action : s32 := -1
  vecEgressRules : List FirewallRule := []
  vecIngressRules : List FirewallRule := []

/-- What `GetFWRulePropsAndDefaultAction` finds for a state. -/
structure StatesDepFirewall where
  defaultAction : s32 := -1
  vecRuleProps : List FirewallRuleProps

/-- A rule name, the vector its values are pushed into, and how they are read. -/
abbrev Row := String × Member × (String → Option s32)

def someipRows : List Row :=
  [("clientId", .clientid, stoi), ("lengthVerification", .lengthVerify, flag),
    ("majorVersion", .majorVersion, stoi), ("messageType", .messageType, stoi),
    ("methodId", .methodId, stoi), ("protocolVersion", .protocolVersion, stoi),
    ("returnCode", .returnCode, stoi), ("serviceInterfaceId", .serviceInterfaceId, stoi)]

def someipSdRows : List Row :=
  [("entryType", .entryType, stoi), ("eventGroupId", .eventGroupId, stoi),
    ("maxMajorVersion", .maxMajorVersion, stoi), ("minMajorVersion", .minMajorVersion, stoi),
    ("maxMinorVersion", .maxMinorVersion, stoi), ("minMinorVersion", .minMinorVersion, stoi),
    ("serviceInstanceId", .serviceInstanceId, stoi),
    ("serviceInterfaceId", .sdServiceInterfaceId, stoi)]

def doipRows : List Row :=
  [("destinationMaxAddress", .destMaxAddr, stoi), ("destinationMinAddress", .destMinAddr, stoi),
    ("inverseProtocolVersion", .inverseProtocolVersion, stoi),
    ("payloadLength", .payloadLength, stoi), ("payloadType", .payloadType, stoi),
    ("protocolVersion", .doipProtocolVersion, stoi), ("sourceMaxAddress", .srcMaxAddress, stoi),
    ("sourceMinAddress", .srcMinAddress, stoi), ("udsService", .udsService, stoi)]

def ddsRows : List Row :=
  [("appId", .appId, stoi), ("hostId", .hostId, stoi), ("instanceId", .instanceId, stoi),
    ("majorProtocolVersion", .majorProtocolVersion, stoi),
    ("minorProtocolVersion", .minorProtocolVersion, stoi), ("protocolId", .protocolId, stoi),
    ("readerEntityId", .readerEntityId, stoi), ("submessageType", .submessageType, stoi),
    ("vendorId", .vendorId, stoi), ("writerEntityId", .writerEntityId, stoi)]

/-- What the rules push, in the order in which they do; a value that cannot be read is `none`. -/
def pushes (rows : List Row) (rules : List RuleParse) : List (Member × Option s32) :=
  rules.flatMap fun it =>
    (rows.filter fun row => it.ruleName = row.1).map fun row => (row.2.1, row.2.2 it.ruleValue)

def FirewallRule.pushes (rule : FirewallRule) : List (Member × Option s32) :=
  Fw.pushes someipRows rule.vecSomeIpRules ++ Fw.pushes someipSdRows rule.vecSomeIpSdRules ++
    Fw.pushes doipRows rule.vecDoIpRules ++ Fw.pushes ddsRows rule.vecDdsRules

def pushBack (vec : Member → List s32) (x : Member × Option s32) : Option (Member → List s32) :=
  x.2.map fun value => Function.update vec x.1 (vec x.1 ++ [value])

/-- `_GetSomeipRules`, `_GetSomeipSdRules`, `_GetDoipRules` and `_GetDdsRules`, one after the
other. -/
def getRules (vec : Member → List s32) (rule : FirewallRule) : Option (Member → List s32) :=
  rule.pushes.foldlM pushBack vec

/-- The vector that is written to a parameter. -/
def Parameter.member : Parameter → Member
  | clientId => .clientid
  | lengthFlag => .lengthVerify
  | majorVersion => .majorVersion
  | msgType => .messageType
  | methodId => .methodId
  | proVersion => .protocolVersion
  | retCode => .returnCode
  | serviceId => .serviceInterfaceId
  | sdEntType => .entryType
  | sdGroupId => .eventGroupId
  | sdServiceInstId => .serviceInstanceId
  | sdServiceId => .sdServiceInterfaceId
  | protocolVersion => .doipProtocolVersion
  | inverProtocolVersion => .inverseProtocolVersion
  | payType => .payloadType
  | payLoadLen => .payloadLength
  | udsService => .udsService

/-- The chain, and the parameters of the kernel module. -/
structure FilterChain where
  vec : Member → List s32
  kernel : Rules

/-- A rule entry, with its direction and the action of the properties it belongs to. -/
structure Entry where
  inOutFlag : Bool
  action : s32
  rule : FirewallRule

/-- The entries in the order in which they are checked. -/
def StatesDepFirewall.entries (c : StatesDepFirewall) : List Entry :=
  c.vecRuleProps.flatMap fun it =>
    it.vecIngressRules.map (Entry.mk true it.action) ++
      it.vecEgressRules.map (Entry.mk false it.action)

namespace FilterChain

variable (defaultAction : s32) (s : FilterChain)

/-- `_SetAppRuleData`: what a parameter is after its vector was written to it. An empty vector is
not written, and several values are refused. -/
def setAppRuleData (values : List s32) (old : s32) : s32 :=
  match values with
  | [value] => value
  | _ => old

def setAppRuleIntoKernal (inOutFlag : Bool) (action defaultAction : s32) : FilterChain :=
  let written (parameters : Parameter → s32) (k : Parameter) :=
    setAppRuleData (s.vec k.member) (parameters k)
  { s with
    kernel := {
      action := action
      defaultAction := defaultAction
      input := if inOutFlag then written s.kernel.input else s.kernel.input
      output := if inOutFlag then s.kernel.output else written s.kernel.output } }

/-- One pass of `_RulesCheckByIngress` or `_RulesCheckByGress`. -/
def checkEntry (e : Entry) : Option FilterChain :=
  (getRules s.vec e.rule).map fun vec =>
    { s with vec := vec }.setAppRuleIntoKernal e.inOutFlag e.action defaultAction

/-- `_DestoryAppInRules`, `_DestoryAppRules` and the reset of the default action. -/
def destoryAppRules : FilterChain :=
  { s with kernel := ⟨-1, -1, fun _ => -1, fun _ => -1⟩ }

def allRulesCheck (c : StatesDepFirewall) : Option (FilterChain × Bool) :=
  if c.vecRuleProps = [] then some (s, false)
  else (c.entries.foldlM (checkEntry c.defaultAction) s.destoryAppRules).map (·, true)

end FilterChain

section

variable (e : Entry) (es : List Entry) (m : Member) (d : Bool)

/-- The values that an entry pushes into a vector. -/
def Entry.given : List s32 := e.rule.pushes.filterMap fun x => if x.1 = m then x.2 else none

def Readable : Prop := ∀ e ∈ es, ∀ x ∈ e.rule.pushes, x.2.isSome

/-- The entries have no rule for the vector. -/
def Untouched : Prop := ∀ e ∈ es, ∀ x ∈ e.rule.pushes, x.1 ≠ m

/-- No rule of the other direction for a parameter stands before an entry of the direction. -/
def OwnRulesFirst : Prop :=
  es.Pairwise fun e e' => e.inOutFlag ≠ d → e'.inOutFlag = d →
    ∀ k : Parameter, Untouched [e] k.member

instance : Decidable (Readable es) := inferInstanceAs (Decidable (∀ e ∈ es, ∀ x ∈ _, _))

end

variable {e : Entry} {es : List Entry} {m : Member} {d : Bool} {a : s32}

theorem Untouched.given_eq (h : Untouched [e] m) : e.given m = [] := by
  rw [Entry.given, filterMap_eq_nil_iff]
  intro x hx
  rw [if_neg (h e mem_cons_self x hx)]

theorem exists_foldlM_pushBack {xs : List (Member × Option s32)} (hread : ∀ x ∈ xs, x.2.isSome)
    (vec : Member → List s32) : ∃ vec', xs.foldlM pushBack vec = some vec' ∧
      ∀ m, vec' m = vec m ++ xs.filterMap fun x => if x.1 = m then x.2 else none := by
  induction xs generalizing vec with
  | nil => exact ⟨vec, rfl, fun _ => (append_nil _).symm⟩
  | cons x xs ih =>
    rw [forall_mem_cons] at hread
    obtain ⟨value, hvalue⟩ := isSome_iff_exists.1 hread.1
    obtain ⟨vec', hvec', hsame⟩ := ih hread.2 (Function.update vec x.1 (vec x.1 ++ [value]))
    refine ⟨vec', ?_, fun m => ?_⟩
    · rw [foldlM_cons, pushBack, hvalue]
      exact hvec'
    · rw [hsame m, filterMap_cons]
      by_cases hm : x.1 = m
      · subst hm
        simp [hvalue]
      · simp [hm, Function.update_of_ne (Ne.symm hm)]

namespace FilterChain

variable {s t u v : FilterChain} {c : StatesDepFirewall}

theorem setAppRuleData_of_ne_one {values : List s32} (h : values.length ≠ 1) (old : s32) :
    setAppRuleData values old = old := by
  match values with
  | [] | _ :: _ :: _ => rfl
  | [_] => simp at h

/-- What an entry does to the vectors and to the parameters. -/
structure Checked (e : Entry) (s t : FilterChain) : Prop where
  vec : ∀ m, t.vec m = s.vec m ++ e.given m
  direction : ∀ d k, t.kernel.direction d k = if e.inOutFlag = d then
    setAppRuleData (t.vec k.member) (s.kernel.direction d k) else s.kernel.direction d k

theorem exists_checkEntry (hread : ∀ x ∈ e.rule.pushes, x.2.isSome) (a : s32) (s : FilterChain) :
    ∃ t, s.checkEntry a e = some t ∧ Checked e s t := by
  obtain ⟨vec, hvec, hgiven⟩ := exists_foldlM_pushBack hread s.vec
  refine ⟨_, by rw [checkEntry, getRules, hvec, map_some], hgiven, fun d k => ?_⟩
  cases d <;> cases hflag : e.inOutFlag <;> simp [Rules.direction, setAppRuleIntoKernal]

/-- The vectors of the parameters and the parameters of the direction are the same. -/
def Alike (d : Bool) (s t : FilterChain) : Prop :=
  ∀ k : Parameter, s.vec k.member = t.vec k.member ∧
    s.kernel.direction d k = t.kernel.direction d k

theorem Alike.own (h : Alike d s v) (ht : Checked e s t) (hu : Checked e v u) : Alike d t u := by
  intro k
  have hvec : t.vec k.member = u.vec k.member := by rw [ht.vec, hu.vec, (h k).1]
  exact ⟨hvec, by rw [ht.direction, hu.direction, hvec, (h k).2]⟩

theorem Alike.other (h : Alike d s v) (ht : Checked e s t) (hother : e.inOutFlag ≠ d)
    (hnone : ∀ k : Parameter, Untouched [e] k.member) : Alike d t v := by
  intro k
  rw [ht.vec, (hnone k).given_eq, append_nil, ht.direction, if_neg hother]
  exact h k

/-- Entries of the other direction. -/
theorem exists_foldlM_other (hread : Readable es) (hother : ∀ e ∈ es, e.inOutFlag ≠ d)
    (s : FilterChain) : ∃ t, es.foldlM (checkEntry a) s = some t ∧
      t.kernel.direction d = s.kernel.direction d := by
  induction es generalizing s with
  | nil => exact ⟨s, rfl, rfl⟩
  | cons e es ih =>
    rw [Readable, forall_mem_cons] at hread
    rw [forall_mem_cons] at hother
    obtain ⟨u, hu, hchecked⟩ := exists_checkEntry hread.1 a s
    obtain ⟨t, ht, hsame⟩ := ih hread.2 hother.2 u
    refine ⟨t, by rw [foldlM_cons, hu]; exact ht, ?_⟩
    rw [hsame]
    funext k
    rw [hchecked.direction, if_neg hother.1]

/-- A run comes to the same values in the direction as one over its own entries alone. -/
theorem exists_foldlM_own (a : s32) (hread : Readable es) (hfirst : OwnRulesFirst es d)
    (h : Alike d s v) : ∃ t w, es.foldlM (checkEntry a) s = some t ∧
      (es.filter (·.inOutFlag = d)).foldlM (checkEntry a) v = some w ∧
      t.kernel.direction d = w.kernel.direction d := by
  induction es generalizing s v with
  | nil => exact ⟨s, v, rfl, rfl, funext fun k => (h k).2⟩
  | cons e es ih =>
    rw [Readable, forall_mem_cons] at hread
    rw [OwnRulesFirst, pairwise_cons] at hfirst
    obtain ⟨s', hs', hs⟩ := exists_checkEntry hread.1 a s
    by_cases hown : e.inOutFlag = d
    · obtain ⟨v', hv', hv⟩ := exists_checkEntry hread.1 a v
      obtain ⟨t, w, ht, hw, hsame⟩ := ih hread.2 hfirst.2 (h.own hs hv)
      refine ⟨t, w, by rw [foldlM_cons, hs']; exact ht, ?_, hsame⟩
      rw [filter_cons_of_pos (by simpa using hown), foldlM_cons, hv']
      exact hw
    · rw [filter_cons_of_neg (by simpa using hown), foldlM_cons, hs']
      by_cases hmore : ∃ e' ∈ es, e'.inOutFlag = d
      · obtain ⟨e', he', hd⟩ := hmore
        exact ih hread.2 hfirst.2 (h.other hs hown (hfirst.1 e' he' hown hd))
      · have hothers : ∀ e ∈ es, e.inOutFlag ≠ d := fun e he hd => hmore ⟨e, he, hd⟩
        obtain ⟨t, ht, hsame⟩ := exists_foldlM_other hread.2 hothers s'
        refine ⟨t, v, ht, by rw [filter_eq_nil_iff.2 (by simpa using hothers)]; rfl, ?_⟩
        rw [hsame]
        funext k
        rw [hs.direction, if_neg hown, (h k).2]

/-- A parameter without a rule keeps its value, unless there is one value left over for it. -/
theorem direction_of_untouched {k : Parameter} (hread : Readable es)
    (hnone : Untouched es k.member) (hone : es ≠ [] → (s.vec k.member).length ≠ 1)
    (h : es.foldlM (checkEntry a) s = some t) :
    t.kernel.direction d k = s.kernel.direction d k := by
  induction es generalizing s with
  | nil =>
    cases h
    rfl
  | cons e es ih =>
    rw [Readable, forall_mem_cons] at hread
    rw [Untouched, forall_mem_cons] at hnone
    obtain ⟨u, hu, hchecked⟩ := exists_checkEntry hread.1 a s
    have hvec : u.vec k.member = s.vec k.member := by
      have hgiven : e.given k.member = [] := Untouched.given_eq (by simpa [Untouched] using hnone.1)
      rw [hchecked.vec, hgiven, append_nil]
    have hlength : (u.vec k.member).length ≠ 1 := hvec ▸ hone (cons_ne_nil _ _)
    rw [foldlM_cons, hu] at h
    rw [ih hread.2 hnone.2 (fun _ => hlength) h, hchecked.direction,
      setAppRuleData_of_ne_one hlength, ite_self]

end FilterChain

open FilterChain

def FirewallRuleProps.rules (it : FirewallRuleProps) (d : Bool) : List FirewallRule :=
  if d then it.vecIngressRules else it.vecEgressRules

/-- The configurations differ at most in the rules of the other direction. -/
structure SameIn (d : Bool) (c c' : StatesDepFirewall) : Prop where
  defaultAction : c.defaultAction = c'.defaultAction
  rules : (c.vecRuleProps.map fun it => (it.action, it.rules d)) =
    c'.vecRuleProps.map fun it => (it.action, it.rules d)

/-- The entries of a direction. -/
def StatesDepFirewall.entriesOf (c : StatesDepFirewall) (d : Bool) : List Entry :=
  c.entries.filter (·.inOutFlag = d)

/-- Both runs come to an end with the same values in the parameters of the direction, and with -1
in those for which it has no rule. -/
def Isolated (s : FilterChain) (d : Bool) (c c' : StatesDepFirewall) : Prop :=
  ∃ t b t' b', s.allRulesCheck c = some (t, b) ∧ s.allRulesCheck c' = some (t', b') ∧
    (∀ k, t.kernel.direction d k = t'.kernel.direction d k) ∧
    ∀ k : Parameter, Untouched (c.entriesOf d) k.member → t.kernel.direction d k = -1

section

variable {c c' : StatesDepFirewall}

theorem SameIn.empty_iff (h : SameIn d c c') : c.vecRuleProps = [] ↔ c'.vecRuleProps = [] := by
  rw [← map_eq_nil_iff, h.rules, map_eq_nil_iff]

theorem SameIn.entriesOf_eq (h : SameIn d c c') : c.entriesOf d = c'.entriesOf d := by
  have hown : ∀ c : StatesDepFirewall, c.entriesOf d =
      (c.vecRuleProps.map fun it => (it.action, it.rules d)).flatMap fun x =>
        x.2.map (Entry.mk d x.1) := by
    intro c
    rw [StatesDepFirewall.entriesOf, StatesDepFirewall.entries, filter_flatMap, flatMap_map]
    congr 1
    funext it
    cases d <;> simp [FirewallRuleProps.rules, List.filter_map, Function.comp_def]
  rw [hown, hown, h.rules]

end

/-- A chain that was not used yet, and a kernel module that was just loaded. -/
def freshChain : FilterChain := ⟨fun _ => [], ⟨-1, -1, fun _ => -1, fun _ => -1⟩⟩

/-- A client for incoming messages and rules for outgoing ones. -/
def bothDirections (client : String) (methods : List String) : StatesDepFirewall :=
  { vecRuleProps := [{
      vecIngressRules := [{ vecSomeIpRules := [⟨"clientId", client⟩] }]
      vecEgressRules := methods.map fun method =>
        { vecSomeIpRules := [⟨"methodId", method⟩] } }] }

def egressClient (cs : List StatesDepFirewall) : Option s32 :=
  (cs.foldlM (fun (s : FilterChain) c => (s.allRulesCheck c).map Prod.fst) freshChain).map
    fun s => s.kernel.output .clientId

end AdaptivePlatform.Fw
