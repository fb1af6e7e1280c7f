import AdaptivePlatform.Diag.TransferManager

/-!
# Access to transfers

A transfer service is to be processed only in a session and with a security
level that are configured for the transfer it belongs to.
-/
namespace AdaptivePlatform.Diag.TransferConfig

open TransferInstance (ofPermission validatorTable)

variable (cfg : TransferConfig) (requestServerType : RequestServerType) (service : TransferService)
  (ctx : AccessContext)

/-- The kind of transfer that a request begins. -/
def begins : TransferService → RequestServerType
  | .download => .download
  | .upload => .upload
  | .fileTransfer => .fileTransfer
  | .transfer => .unknow
  | .transferExit => .unknow

/-- The kind of transfer that a request belongs to: the kind it begins, or the one that runs. -/
def transferType : RequestServerType :=
  if begins service = .unknow then requestServerType else begins service

def permission : RequestServerType → Option TransferPermission
  | .unknow => none
  | .download => cfg.requestDownload
  | .upload => cfg.requestUpload
  | .fileTransfer => cfg.requestFileTransfer

/-- A request that is processed comes in a session and with a security level of its kind of
transfer. -/
def OnlyPermitted : Prop :=
  cfg.hanldeRequestContext requestServerType service ctx = true →
    ∀ permission ∈ cfg.permission (transferType requestServerType service),
      ctx.session ∈ permission.accessPermissionSession ∧
        ctx.securityLevel ∈ permission.accessPermissionSecurityLevel

/-- The client has a role that the permission asks for, in one of its sessions. -/
def Admits (permission : TransferPermission) : Prop :=
  (∀ roles ∈ permission.authRoleList, ctx.isAuthenticated roles = true) ∧
    ctx.session ∈ permission.accessPermissionSession

/-- A request is concerned by the kind of transfer it begins and by the one that runs. -/
def Concerns (kind : RequestServerType) : Prop := begins service = kind ∨ requestServerType = kind

theorem concerns_transferType :
    Concerns requestServerType service (transferType requestServerType service) := by
  unfold Concerns transferType
  split_ifs
  · exact .inr rfl
  · exact .inl rfl

theorem all_validatorTable_iff (permission : Option TransferPermission) (ctx : AccessContext) :
    (ofPermission permission).validatorTable.all (·.validate ctx) = true ↔
      ∀ p ∈ permission, Admits ctx p := by
  cases permission with
  | none => simp [ofPermission, validatorTable]
  | some p =>
    obtain ⟨roles, sessions, levels⟩ := p
    cases roles <;>
      simp [ofPermission, validatorTable, Validator.validate, Admits]

theorem all_ite_validatorTable_iff {p : Prop} [Decidable p] (permission : Option TransferPermission)
    (ctx : AccessContext) :
    (if p then (ofPermission permission).validatorTable else []).all
        (·.validate ctx) = true ↔ (p → ∀ q ∈ permission, Admits ctx q) := by
  by_cases h : p
  · simp only [h, if_true, all_validatorTable_iff, true_imp_iff]
  · simp [h]

theorem all_getSidValidator_iff :
    (cfg.getSidValidator requestServerType service).all (·.validate ctx) = true ↔
      ∀ kind, Concerns requestServerType service kind →
        ∀ permission ∈ cfg.permission kind, Admits ctx permission := by
  have hdownload : service = .download ↔ begins service = .download := by cases service <;> decide
  have hupload : service = .upload ↔ begins service = .upload := by cases service <;> decide
  have hfile : service = .fileTransfer ↔ begins service = .fileTransfer := by
    cases service <;> decide
  unfold getSidValidator downloadInstance uploadInstance fileTransferInstance
  rw [List.all_append, List.all_append, Bool.and_eq_true, Bool.and_eq_true,
    all_ite_validatorTable_iff, all_ite_validatorTable_iff, all_ite_validatorTable_iff,
    hdownload, hupload, hfile]
  constructor
  · rintro ⟨⟨hd, hu⟩, hf⟩ kind hconcerns
    cases kind with
    | unknow => exact fun permission hp => nomatch hp
    | download => exact hd hconcerns
    | upload => exact hu hconcerns
    | fileTransfer => exact hf hconcerns
  · intro h
    exact ⟨⟨h .download, h .upload⟩, h .fileTransfer⟩

/-- What lets a request through to its processing: both validations, and the roles and sessions
of each kind of transfer that concerns it. -/
def Passes : Prop :=
  ctx.manufacturerServiceValidate = true ∧ ctx.supplierServiceValidate = true ∧
    ∀ kind, Concerns requestServerType service kind →
      ∀ permission ∈ cfg.permission kind, Admits ctx permission

theorem hanldeRequestContext_iff :
    cfg.hanldeRequestContext requestServerType service ctx = true ↔
      cfg.isRegistered service = true ∧ cfg.Passes requestServerType service ctx := by
  unfold hanldeRequestContext Passes
  rw [Bool.and_eq_true, Bool.and_eq_true, Bool.and_eq_true, all_getSidValidator_iff]
  constructor
  · rintro ⟨⟨⟨hm, hr⟩, hv⟩, hs⟩
    exact ⟨hr, hm, hs, hv⟩
  · rintro ⟨hr, hm, hs, hv⟩
    exact ⟨⟨⟨hm, hr⟩, hv⟩, hs⟩

theorem isRegistered_of_permission {requestServerType : RequestServerType}
    {service : TransferService} {permission : TransferPermission}
    (h : permission ∈ cfg.permission (transferType requestServerType service)) :
    cfg.isRegistered service = true := by
  cases service <;> cases requestServerType <;>
    simp_all [TransferConfig.permission, transferType, begins, isRegistered]

/-- The requests of a kind of transfer are processed only if they are permitted, precisely where
the current security level is one of that kind or they do not pass in any case. -/
theorem onlyPermitted_iff (requestServerType : RequestServerType) (service : TransferService)
    (ctx : AccessContext) :
    cfg.OnlyPermitted requestServerType service ctx ↔
      ∀ permission ∈ cfg.permission (transferType requestServerType service),
        cfg.Passes requestServerType service ctx →
          ctx.securityLevel ∈ permission.accessPermissionSecurityLevel := by
  unfold OnlyPermitted
  rw [hanldeRequestContext_iff]
  constructor
  · intro h permission hp hpasses
    exact (h ⟨cfg.isRegistered_of_permission hp, hpasses⟩ permission hp).2
  · rintro h ⟨-, hpasses⟩ permission hp
    have hadmits := hpasses.2.2 _ (concerns_transferType requestServerType service) permission hp
    exact ⟨hadmits.2, h permission hp hpasses⟩

/-- A download in session 3 with security level 5, and a tester without any. -/
theorem download_without_level :
    ¬ OnlyPermitted { requestDownload := some ⟨none, [3], [5]⟩ } .unknow .download
      { session := 3, securityLevel := 0, isAuthenticated := fun _ => false } := by
  intro h
  have hlevel := (h rfl _ rfl).2
  exact absurd hlevel (by decide)

end AdaptivePlatform.Diag.TransferConfig
