import EventSieve.QualifiedKind
import Mathlib.Tactic.ByContra
import Mathlib.Tactic.SplitIfs

/-!
The order of texts and that of their bytes. Texts are compared character by
character. A character that comes before another one has bytes in UTF-8 that
come before those of the other, whatever follows, so texts are in the order of
their bytes, and keys in that of the bytes of their group and then of their kind.
-/

namespace EventSieve

namespace Text

/-- The bytes of a text in UTF-8. -/
def bytes (text : String) : List UInt8 := text.toUTF8.data.toList

theorem bytes_eq_flatMap (text : String) : bytes text = text.toList.flatMap String.utf8EncodeChar := by
  rw [bytes, String.toUTF8_eq_toByteArray, ← String.utf8Encode_toList, List.utf8Encode,
    List.toList_data_toByteArray]

/-- Two numbers differ first in one of four places to the base 64, of which the first is not bounded. -/
theorem places_lt {a b : Nat} (less : a < b) :
    a / 262144 < b / 262144 ∨
    (a / 262144 = b / 262144 ∧ a / 4096 % 64 < b / 4096 % 64) ∨
    (a / 262144 = b / 262144 ∧ a / 4096 % 64 = b / 4096 % 64 ∧ a / 64 % 64 < b / 64 % 64) ∨
    (a / 262144 = b / 262144 ∧ a / 4096 % 64 = b / 4096 % 64 ∧ a / 64 % 64 = b / 64 % 64 ∧ a % 64 < b % 64) := by
  by_cases first : a / 262144 < b / 262144
  · omega
  · by_cases second : a / 4096 < b / 4096
    · omega
    · by_cases third : a / 64 < b / 64 <;> omega

/-- The bytes of a character come before those of a later one, whatever follows either. -/
theorem utf8EncodeChar_append_lt {c d : Char} (less : c < d) (first second : List UInt8) :
    String.utf8EncodeChar c ++ first < String.utf8EncodeChar d ++ second := by
  have order : c.val.toNat < d.val.toNat := less
  have bound : d.val.toNat < 1114112 := by
    rcases d.valid with low | ⟨_, high⟩
    · omega
    · exact high
  simp only [String.utf8EncodeChar]
  by_cases long : 65536 ≤ c.val.toNat
  · -- Both take four bytes, which are compared place by place.
    simp only [show ¬ c.val.toNat ≤ 127 by omega, show ¬ c.val.toNat ≤ 2047 by omega,
      show ¬ c.val.toNat ≤ 65535 by omega, show ¬ d.val.toNat ≤ 127 by omega,
      show ¬ d.val.toNat ≤ 2047 by omega, show ¬ d.val.toNat ≤ 65535 by omega, if_false]
    simp only [List.cons_append, List.nil_append, List.cons_lt_cons_iff, UInt8.lt_iff_toNat_lt,
      ← UInt8.toNat_inj, UInt8.toNat_ofNat']
    rcases places_lt order with place | place | place | place <;> omega
  · split_ifs <;>
      simp only [List.cons_append, List.nil_append, List.cons_lt_cons_iff, UInt8.lt_iff_toNat_lt,
        ← UInt8.toNat_inj, UInt8.toNat_ofNat'] <;>
      omega

theorem bytes_lt_of_lt {first second : String} (less : first < second) : bytes first < bytes second := by
  have letters : ∀ {first second : List Char}, first < second →
      first.flatMap String.utf8EncodeChar < second.flatMap String.utf8EncodeChar := by
    intro first second less
    induction less with
    | nil =>
      rename_i c rest
      obtain ⟨byte, more, encoded⟩ := List.exists_cons_of_ne_nil (@String.utf8EncodeChar_ne_nil c)
      simp [encoded]
    | cons _ ih =>
      rw [List.flatMap_cons, List.flatMap_cons]
      exact List.append_left_lt ih
    | rel before => exact utf8EncodeChar_append_lt before _ _
  rw [bytes_eq_flatMap, bytes_eq_flatMap]
  exact letters less

/-- Texts are in the order of their bytes. -/
theorem lt_iff_bytes_lt {first second : String} : first < second ↔ bytes first < bytes second := by
  refine ⟨bytes_lt_of_lt, fun less => ?_⟩
  by_contra notBefore
  by_cases after : second < first
  · exact List.lt_asymm less (bytes_lt_of_lt after)
  · have same : first = second := String.le_antisymm (String.not_lt.1 after) (String.not_lt.1 notBefore)
    rw [same] at less
    exact List.lt_irrefl _ less

end Text

/-- Keys are in the order of the bytes of their groups, and of one group in that of their kinds. -/
theorem QualifiedKind.lt_iff_bytes_lt {first second : QualifiedKind} :
    first < second ↔ Text.bytes first.group < Text.bytes second.group ∨
      (first.group = second.group ∧ Text.bytes first.kind < Text.bytes second.kind) := by
  rw [← Text.lt_iff_bytes_lt, ← Text.lt_iff_bytes_lt]
  rfl

end EventSieve
