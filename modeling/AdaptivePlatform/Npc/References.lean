import AdaptivePlatform.Npc.Zone

/-!
# References into a zone

A reference has the number of a segment above the offset in it. The check of a
zone bounds the number of segments, but computes the total as an `int`, where a
total of 4 GiB or more wraps.
-/
namespace AdaptivePlatform.Npc

open BitVec Bytes
open BitVec (ofNat toNat_ofNat)

/-- What `npc_mzone_verify` reads of a zone. -/
structure ZoneHead where
  tag : uint16 := 0x5A4D
  serv : uint16 := 0
  inst : uint16 := 0
  segSize : uint32
  segShift : uint32
  segCount : uint16

structure ShmzAttr where
  serv : uint16
  inst : uint16

/-- `npc_mzone_verify`. A shift by 32 bits or more is undefined. -/
def mzoneVerify (z : ZoneHead) (a : Option ShmzAttr) : Option Bool :=
  if z.tag ≠ 0x5A4D then some false
  else if a.any fun a => z.serv ≠ a.serv || z.inst ≠ a.inst then some false
  else if z.segCount = 0 ∨ 256 < z.segCount then some false
  else if z.segSize < 0x40000 ∨ 0x20000000 < z.segSize then some false
  else if z.segSize &&& 0x3FFFF ≠ 0 then some false
  else if 32 ≤ z.segShift then none
  else if (1 : uint32) <<< z.segShift < z.segSize then some false
  else
    let total : uint64 := (z.segCount.setWidth 32 <<< z.segShift).signExtend 64
    some (total ≤ 16 * 1024 * (256 * 1024))

def maddr2ref (zone zoff shift : uint32) : uint32 := zone <<< shift ||| zoff

def maddrSet (ref shift : uint32) : uint32 × uint32 :=
  (ref >>> shift, ref &&& ((1 : uint32) <<< shift - 1))

/-- A zone that is open, with the addresses its segments are mapped to (0 for a segment that is
not mapped). What is mapped does not overlap. -/
structure Shmz extends ZoneHead where
  start : ℕ → ℕ
  apart : ∀ i j, i ≠ j → start i ≠ 0 → start j ≠ 0 →
    start i + segSize.toNat ≤ start j ∨ start j + segSize.toNat ≤ start i

namespace Shmz

variable (p : Shmz)

def holds (ptr i : ℕ) : Bool :=
  p.start i ≠ 0 && p.start i ≤ ptr && ptr < p.start i + p.segSize.toNat

/-- `npc_shmz_find`: the tree is ordered by the addresses, so that it finds the segment of an
address. -/
def find (ptr : ℕ) : Option ℕ := (List.range p.segCount.toNat).find? (p.holds ptr)

/-- `npc_shmz_2ref`, 0 if it fails -/
def shmz2ref (ptr : ℕ) : uint32 :=
  match p.find ptr with
  | none => 0
  | some i => maddr2ref (ofNat 32 i) (ofNat 32 (ptr - p.start i)) p.segShift

/-- `npc_shmz_2ptr`, 0 if it fails -/
def shmz2ptr (ref : uint32) : ℕ :=
  let a := maddrSet ref p.segShift
  if p.segCount.setWidth 32 ≤ a.1 then 0
  else if p.segSize ≤ a.2 then 0
  else if p.start a.1.toNat = 0 then 0
  else p.start a.1.toNat + a.2.toNat

end Shmz

/-- Each place in a zone has a reference of its own, and references and mapped addresses (but for
the start of the zone, whose reference says that it failed) are translated into each other. -/
structure Unambiguous (z : ZoneHead) : Prop where
  injective : ∀ zone zone' zoff zoff' : uint32,
    zone < z.segCount.setWidth 32 → zone' < z.segCount.setWidth 32 →
    zoff < z.segSize → zoff' < z.segSize →
      maddr2ref zone zoff z.segShift = maddr2ref zone' zoff' z.segShift →
        zone = zone' ∧ zoff = zoff'
  ptr_ref : ∀ p : Shmz, p.toZoneHead = z → ∀ ptr, (p.find ptr).isSome → ptr ≠ p.start 0 →
    p.shmz2ref ptr ≠ 0 ∧ p.shmz2ptr (p.shmz2ref ptr) = ptr
  ref_ptr : ∀ p : Shmz, p.toZoneHead = z → ∀ ref, p.shmz2ptr ref ≠ 0 →
    p.shmz2ref (p.shmz2ptr ref) = ref

section

variable {zone zoff shift ref : uint32}

theorem toNat_maddr2ref (hzone : zone.toNat * 2 ^ shift.toNat < 2 ^ 32)
    (hoff : zoff.toNat < 2 ^ shift.toNat) :
    (maddr2ref zone zoff shift).toNat = zone.toNat * 2 ^ shift.toNat + zoff.toNat := by
  have hshifted : (zone <<< shift).toNat = zone.toNat <<< shift.toNat := by
    rw [shiftLeft_eq', toNat_shiftLeft, Nat.mod_eq_of_lt (by rwa [Nat.shiftLeft_eq])]
  rw [maddr2ref, toNat_or, hshifted, ← Nat.shiftLeft_add_eq_or_of_lt hoff, Nat.shiftLeft_eq]

section

variable (hshift : shift.toNat < 32)

include hshift

theorem toNat_one_shiftLeft : ((1 : uint32) <<< shift).toNat = 2 ^ shift.toNat := by
  have hpow : 2 ^ shift.toNat < 2 ^ 32 := Nat.pow_lt_pow_right (by decide) hshift
  rw [shiftLeft_eq', toNat_shiftLeft, Nat.shiftLeft_eq, show (1 : uint32).toNat = 1 from rfl,
    one_mul, Nat.mod_eq_of_lt hpow]

theorem toNat_maddrSet (ref : uint32) : (maddrSet ref shift).1.toNat = ref.toNat / 2 ^ shift.toNat ∧
      (maddrSet ref shift).2.toNat = ref.toNat % 2 ^ shift.toNat := by
  have hmask : ((1 : uint32) <<< shift - 1).toNat = 2 ^ shift.toNat - 1 := by
    have hone := toNat_one_shiftLeft hshift
    have hpos := Nat.two_pow_pos shift.toNat
    bv_omega
  constructor
  · rw [maddrSet, ushiftRight_eq', toNat_ushiftRight, Nat.shiftRight_eq_div_pow]
  · rw [maddrSet, toNat_and_mask hmask]

theorem maddrSet_maddr2ref
    (hzone : zone.toNat * 2 ^ shift.toNat < 2 ^ 32) (hoff : zoff.toNat < 2 ^ shift.toNat) :
    maddrSet (maddr2ref zone zoff shift) shift = (zone, zoff) := by
  obtain ⟨hfst, hsnd⟩ := toNat_maddrSet hshift (maddr2ref zone zoff shift)
  rw [toNat_maddr2ref hzone hoff, mul_comm] at hfst hsnd
  rw [Nat.mul_add_div (Nat.two_pow_pos _), Nat.div_eq_of_lt hoff] at hfst
  rw [Nat.mul_add_mod, Nat.mod_eq_of_lt hoff] at hsnd
  exact Prod.ext (eq_of_toNat_eq hfst) (eq_of_toNat_eq hsnd)

theorem maddr2ref_maddrSet (ref : uint32) :
    maddr2ref (maddrSet ref shift).1 (maddrSet ref shift).2 shift = ref := by
  obtain ⟨hfst, hsnd⟩ := toNat_maddrSet hshift ref
  have hdiv := Nat.div_add_mod' ref.toNat (2 ^ shift.toNat)
  have hoff := Nat.mod_lt ref.toNat (Nat.two_pow_pos shift.toNat)
  rw [← hfst, ← hsnd] at hdiv
  rw [← hsnd] at hoff
  apply eq_of_toNat_eq
  rwa [toNat_maddr2ref (by have := ref.isLt; omega) hoff]

end

end

section

variable {z : ZoneHead} {a : Option ShmzAttr}

theorem mzoneVerify_bounds (hz : mzoneVerify z a = some true) :
    z.segShift.toNat < 32 ∧ 0 < z.segSize.toNat ∧ z.segSize.toNat ≤ 2 ^ z.segShift.toNat := by
  have h : ¬32 ≤ z.segShift ∧ ¬z.segSize < 0x40000 ∧ ¬(1 : uint32) <<< z.segShift < z.segSize := by
    grind [mzoneVerify]
  obtain ⟨hshift, hmin, hsize⟩ := h
  have hshift : z.segShift.toNat < 32 := by bv_omega
  rw [BitVec.lt_def, toNat_one_shiftLeft hshift] at hsize
  exact ⟨hshift, by bv_omega, not_lt.mp hsize⟩

end

/-- A place in a segment that is mapped -/
structure Shmz.Mapped (p : Shmz) (zone zoff : uint32) : Prop where
  zone_lt : zone.toNat < p.segCount.toNat
  zoff_lt : zoff.toNat < p.segSize.toNat
  start_ne : p.start zone.toNat ≠ 0

namespace Shmz.Mapped

variable {p : Shmz} {zone zoff : uint32} (hm : p.Mapped zone zoff)
include hm

theorem find_eq : p.find (p.start zone.toNat + zoff.toNat) = some zone.toNat := by
  have hlt := hm.zoff_lt
  cases hfind : p.find (p.start zone.toNat + zoff.toNat) with
  | none =>
    have hnot := List.find?_eq_none.mp hfind _ (List.mem_range.mpr hm.zone_lt)
    simp [holds, hm.start_ne, hlt] at hnot
  | some i =>
    have hholds := List.find?_some hfind
    simp only [holds, Bool.and_eq_true, decide_eq_true_eq] at hholds
    by_contra hne
    have hapart := p.apart i zone.toNat (by simpa using hne) hholds.1.1 hm.start_ne
    omega

theorem shmz2ref_eq :
    p.shmz2ref (p.start zone.toNat + zoff.toNat) = maddr2ref zone zoff p.segShift := by
  simp [shmz2ref, hm.find_eq]

theorem shmz2ptr_eq {ref : uint32} (hset : maddrSet ref p.segShift = (zone, zoff)) :
    p.shmz2ptr ref = p.start zone.toNat + zoff.toNat := by
  have hzone := hm.zone_lt
  have hzoff := hm.zoff_lt
  simp only [shmz2ptr, hset, if_neg hm.start_ne]
  rw [if_neg (by bv_omega), if_neg (by bv_omega)]

end Shmz.Mapped

theorem Shmz.exists_mapped {p : Shmz} {ptr : ℕ} (hfind : (p.find ptr).isSome) :
    ∃ zone zoff, p.Mapped zone zoff ∧ ptr = p.start zone.toNat + zoff.toNat := by
  obtain ⟨i, hi⟩ := Option.isSome_iff_exists.mp hfind
  have hlt := List.mem_range.mp (List.mem_of_find?_eq_some hi)
  have hholds := List.find?_some hi
  simp only [holds, Bool.and_eq_true, decide_eq_true_eq] at hholds
  have hzone : (ofNat 32 i).toNat = i := by
    rw [toNat_ofNat, Nat.mod_eq_of_lt (by have := p.segCount.isLt; omega)]
  have hzoff : (ofNat 32 (ptr - p.start i)).toNat = ptr - p.start i := by
    rw [toNat_ofNat, Nat.mod_eq_of_lt (by have := p.segSize.isLt; omega)]
  refine ⟨ofNat 32 i, ofNat 32 (ptr - p.start i), ⟨?_, ?_, ?_⟩, ?_⟩
  all_goals simp only [hzone, hzoff]
  · exact hlt
  · omega
  · exact hholds.1.1
  · omega

theorem Shmz.mapped_of_shmz2ptr {p : Shmz} {ref : uint32} (hptr : p.shmz2ptr ref ≠ 0) :
    p.Mapped (maddrSet ref p.segShift).1 (maddrSet ref p.segShift).2 := by
  simp only [shmz2ptr, ne_eq, ite_eq_left_iff, not_forall] at hptr
  obtain ⟨hcount, hsize, hstart, -⟩ := hptr
  exact ⟨by bv_omega, by bv_omega, hstart⟩

section

variable {z : ZoneHead} (hshift : z.segShift.toNat < 32)
  (hsize : z.segSize.toNat ≤ 2 ^ z.segShift.toNat)
  (hfits : z.segCount.toNat * 2 ^ z.segShift.toNat ≤ 2 ^ 32)
include hsize hfits hshift

theorem maddrSet_place {zone zoff : uint32} (hzone : zone.toNat < z.segCount.toNat)
    (hzoff : zoff.toNat < z.segSize.toNat) :
    maddrSet (maddr2ref zone zoff z.segShift) z.segShift = (zone, zoff) := by
  apply maddrSet_maddr2ref hshift
  · exact lt_of_lt_of_le (Nat.mul_lt_mul_of_pos_right hzone (Nat.two_pow_pos _)) hfits
  · exact lt_of_lt_of_le hzoff hsize

theorem unambiguous_of_fits : Unambiguous z where
  injective := by
    intro zone zone' zoff zoff' hzone hzone' hzoff hzoff' href
    have hplace : (zone, zoff) = (zone', zoff') := by
      rw [← maddrSet_place hshift hsize hfits (by bv_omega) hzoff, href,
        maddrSet_place hshift hsize hfits (by bv_omega) hzoff']
    exact Prod.mk.inj hplace
  ptr_ref := by
    rintro p rfl ptr hfind hptr
    obtain ⟨zone, zoff, hm, rfl⟩ := p.exists_mapped hfind
    have hplace := maddrSet_place hshift hsize hfits hm.zone_lt hm.zoff_lt
    rw [hm.shmz2ref_eq]
    refine ⟨fun hzero => hptr ?_, hm.shmz2ptr_eq hplace⟩
    -- both halves of reference 0 are 0
    rw [hzero, show maddrSet 0 p.segShift = (0, 0) by simp [maddrSet]] at hplace
    cases hplace
    rfl
  ref_ptr := by
    rintro p rfl ref hptr
    have hm := p.mapped_of_shmz2ptr hptr
    rw [hm.shmz2ptr_eq rfl, hm.shmz2ref_eq, maddr2ref_maddrSet hshift]

end

/-- The first segment whose number needs a bit that the shift moves out has the references of
segment 0. -/
theorem not_unambiguous {z : ZoneHead} (hshift : z.segShift.toNat < 32)
    (hpos : 0 < z.segSize.toNat) (hmore : 2 ^ 32 < z.segCount.toNat * 2 ^ z.segShift.toNat) :
    ¬Unambiguous z := by
  intro h
  have hsplit : 2 ^ 32 = 2 ^ (32 - z.segShift.toNat) * 2 ^ z.segShift.toNat :=
    (pow_sub_mul_pow 2 hshift.le).symm
  have hlt : 2 ^ (32 - z.segShift.toNat) < z.segCount.toNat := by
    rw [hsplit] at hmore
    exact Nat.lt_of_mul_lt_mul_right hmore
  have hzone : (ofNat 32 (2 ^ (32 - z.segShift.toNat))).toNat = 2 ^ (32 - z.segShift.toNat) := by
    rw [toNat_ofNat, Nat.mod_eq_of_lt (by have := z.segCount.isLt; omega)]
  have hshifted : (ofNat 32 (2 ^ (32 - z.segShift.toNat))) <<< z.segShift = 0 := by
    apply eq_of_toNat_eq
    rw [shiftLeft_eq', toNat_shiftLeft, hzone, Nat.shiftLeft_eq, ← hsplit]
    rfl
  have hsame := h.injective (ofNat 32 (2 ^ (32 - z.segShift.toNat))) 0 0 0 (by bv_omega)
    (by bv_omega) (by bv_omega) (by bv_omega)
    (by rw [maddr2ref, hshifted]; simp [maddr2ref])
  have hzero := congrArg BitVec.toNat hsame.1
  rw [hzone] at hzero
  exact (Nat.two_pow_pos _).ne' hzero

/-- References into a zone that the check accepts are unambiguous exactly if the segments, each
rounded up to its power of two, are not more than 4 GiB. -/
theorem unambiguous_iff (z : ZoneHead) (a : Option ShmzAttr) (hz : mzoneVerify z a = some true) :
    Unambiguous z ↔ z.segCount.toNat * 2 ^ z.segShift.toNat ≤ 2 ^ 32 := by
  obtain ⟨hshift, hpos, hsize⟩ := mzoneVerify_bounds hz
  constructor
  · intro h
    by_contra hmore
    exact not_unambiguous hshift hpos (not_le.mp hmore) h
  · exact unambiguous_of_fits hshift hsize

/-- Three segments of 256 KiB -/
theorem unambiguous_small :
    mzoneVerify ⟨0x5A4D, 1, 2, 0x40000, 18, 3⟩ (some ⟨1, 2⟩) = some true ∧
      Unambiguous ⟨0x5A4D, 1, 2, 0x40000, 18, 3⟩ :=
  ⟨by decide, (unambiguous_iff _ (some ⟨1, 2⟩) (by decide)).mpr (by decide)⟩

/-- Nine segments of 512 MiB: segment 8 has the references of segment 0. -/
theorem ambiguous_nine :
    mzoneVerify ⟨0x5A4D, 1, 2, 0x20000000, 29, 9⟩ (some ⟨1, 2⟩) = some true ∧
      ¬Unambiguous ⟨0x5A4D, 1, 2, 0x20000000, 29, 9⟩ := by
  refine ⟨by decide, fun h => ?_⟩
  have hsame := h.injective 8 0 0 0 (by decide) (by decide) (by decide) (by decide) (by decide)
  exact absurd hsame.1 (by decide)

end AdaptivePlatform.Npc
