import Std.Data.String.ToNat
import IguanaIR.Listener

/-! # Names in the socket directory

Indexes and locations as text.  An index is written in digits, a location is two numbers with a
dash between them, so no two devices share one and no index is a location (`decimal_injective`,
`locationAlias_injective`, `locationAlias_ne_decimal`). -/

namespace IguanaIR

/-! ### Numbers -/

def IsDigit (b : Byte) : Prop := 48 ≤ b.toNat ∧ b.toNat ≤ 57

theorem decimal_eq (n : ℕ) :
    decimal n = (Nat.toDigits 10 n).map (fun c => BitVec.ofNat 8 c.toNat) := by
  rw [decimal, ascii, show toString n = Nat.repr n from rfl, Nat.toList_repr]

/-- The byte of a digit. -/
theorem digit_toNat {n : ℕ} {c : Char} (h : c ∈ Nat.toDigits 10 n) :
    (BitVec.ofNat 8 c.toNat).toNat = c.toNat ∧ IsDigit (BitVec.ofNat 8 c.toNat) := by
  have hdigit := Nat.isDigit_of_mem_toDigits (by decide) (by decide) h
  rw [Char.isDigit_iff_toNat] at hdigit
  have hbound : 48 ≤ c.toNat ∧ c.toNat ≤ 57 := hdigit
  have hnat : (BitVec.ofNat 8 c.toNat).toNat = c.toNat := Nat.mod_eq_of_lt (by omega)
  rw [IsDigit, hnat]
  exact ⟨rfl, hbound⟩

theorem decimal_isDigit {n : ℕ} {b : Byte} (h : b ∈ decimal n) : IsDigit b := by
  rw [decimal_eq] at h
  obtain ⟨c, hc, rfl⟩ := List.mem_map.mp h
  exact (digit_toNat hc).2

theorem decimal_injective {m n : ℕ} (h : decimal m = decimal n) : m = n := by
  have hdigits (k : ℕ) : (decimal k).map (fun b => Char.ofNat b.toNat) = Nat.toDigits 10 k := by
    rw [decimal_eq, List.map_map]
    conv_rhs => rw [← List.map_id (Nat.toDigits 10 k)]
    apply List.map_congr_left
    intro c hc
    rw [Function.comp_apply, (digit_toNat hc).1, Char.ofNat_toNat, id]
  apply Nat.repr_injective
  rw [← String.toList_inj, Nat.toList_repr, Nat.toList_repr, ← hdigits, h, hdigits]

theorem decimal_ne_nil (n : ℕ) : decimal n ≠ [] := by
  rw [decimal_eq, ne_eq, List.map_eq_nil_iff]
  exact Nat.toDigits_ne_nil

theorem decimal_length {n k : ℕ} (hk : 0 < k) (h : n < 10 ^ k) : (decimal n).length ≤ k := by
  rw [decimal_eq, List.length_map, Nat.length_toDigits_le_iff (by decide) hk]
  exact h

/-! ### Locations -/

/-- `sprintf` with `%d-%d`. -/
def locationAlias (location : Byte × Byte) : CString :=
  decimal location.1.toNat ++ ascii "-" ++ decimal location.2.toNat

theorem mem_locationAlias {location : Byte × Byte} {b : Byte} (h : b ∈ locationAlias location) :
    IsDigit b ∨ b = 0x2D := by
  rw [locationAlias, List.mem_append, List.mem_append] at h
  obtain (hb | hb) | hb := h
  · exact .inl (decimal_isDigit hb)
  · exact .inr (List.mem_singleton.mp hb)
  · exact .inl (decimal_isDigit hb)

theorem dash_notMem_decimal (n : ℕ) : 0x2D ∉ decimal n :=
  fun h => absurd (decimal_isDigit h).1 (by decide)

theorem locationAlias_injective {l l' : Byte × Byte} (h : locationAlias l = locationAlias l') :
    l = l' := by
  have hdash (l : Byte × Byte) : locationAlias l =
      decimal l.1.toNat ++ 0x2D :: decimal l.2.toNat := by
    rw [locationAlias, List.append_assoc]
    rfl
  rw [hdash, hdash, List.append_cons_inj_of_notMem (dash_notMem_decimal _)
    (dash_notMem_decimal _)] at h
  obtain ⟨hbus, -, hport⟩ := h
  exact Prod.ext (BitVec.eq_of_toNat_eq (decimal_injective hbus))
    (BitVec.eq_of_toNat_eq (decimal_injective hport))

theorem locationAlias_ne_decimal (l : Byte × Byte) (n : ℕ) : locationAlias l ≠ decimal n := by
  intro h
  apply dash_notMem_decimal n
  rw [← h, locationAlias]
  exact List.mem_append_left _ (List.mem_append_right _ (List.mem_singleton.mpr rfl))

theorem locationAlias_length (l : Byte × Byte) : (locationAlias l).length ≤ 7 := by
  have hbyte (b : Byte) : (decimal b.toNat).length ≤ 3 :=
    decimal_length (by decide) (b.isLt.trans (by decide))
  have hbus := hbyte l.1
  have hport := hbyte l.2
  rw [locationAlias, List.length_append, List.length_append, show (ascii "-").length = 1 from rfl]
  omega

/-! ### Paths -/

theorem socketName_eq {name : CString} (h : 0x2F ∉ name) :
    socketName name = IGSOCK_NAME ++ name := by
  rw [socketName, if_neg]
  exact fun hsubset => h (hsubset (List.mem_singleton.mpr rfl))

theorem socketName_slash {name : CString} (h : 0x2F ∈ name) : socketName name = name := by
  rw [socketName, if_pos]
  intro b hb
  rw [List.mem_singleton.mp hb]
  exact h

/-- Digits and dashes, at least one. -/
structure Numeric (name : CString) : Prop where
  ne_nil : name ≠ []
  bytes : ∀ b ∈ name, IsDigit b ∨ b = 0x2D

theorem numeric_decimal (n : ℕ) : Numeric (decimal n) :=
  ⟨decimal_ne_nil n, fun _ hb => .inl (decimal_isDigit hb)⟩

theorem numeric_locationAlias (l : Byte × Byte) : Numeric (locationAlias l) := by
  refine ⟨?_, fun _ hb => mem_locationAlias hb⟩
  rw [locationAlias]
  exact List.append_ne_nil_of_right_ne_nil _ (decimal_ne_nil _)

theorem Numeric.notMem {name : CString} (h : Numeric name) {b : Byte}
    (hb : b.toNat < 45 ∨ b.toNat = 46 ∨ b.toNat = 47 ∨ 57 < b.toNat) : b ∉ name := by
  intro hmem
  obtain hdigit | rfl := h.bytes b hmem
  · obtain ⟨hlow, hhigh⟩ := hdigit
    omega
  · revert hb
    decide

theorem slash_notMem_decimal (n : ℕ) : 0x2F ∉ decimal n := (numeric_decimal n).notMem (by decide)

theorem slash_notMem_locationAlias (l : Byte × Byte) : 0x2F ∉ locationAlias l :=
  (numeric_locationAlias l).notMem (by decide)

theorem Numeric.ne_ctl {name : CString} (h : Numeric name) : name ≠ ascii "ctl" := by
  rintro rfl
  exact @Numeric.notMem _ h 0x63 (by decide) (by decide)

theorem socketName_injective {name name' : CString} (h : 0x2F ∉ name) (h' : 0x2F ∉ name')
    (heq : socketName name = socketName name') : name = name' := by
  rw [socketName_eq h, socketName_eq h'] at heq
  exact List.append_cancel_left heq

end IguanaIR
