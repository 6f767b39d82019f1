import DataBind.Proofs.KeyedEntries
import Mathlib.Tactic.SplitIfs

/-!
# The order of UTF-8 bytes

UTF-8 keeps the order of code points: comparing two texts code point by code point is comparing
their encodings byte by byte. So the keys of a map ascend in the order of their bytes.
-/

namespace DataBind

namespace Text

def utf8Bytes (text : String) : List UInt8 :=
  text.toByteArray.data.toList

theorem utf8Bytes_eq_flatMap (text : String) :
    utf8Bytes text = text.toList.flatMap String.utf8EncodeChar := by
  rw [utf8Bytes, ← String.utf8Encode_toList]
  simp [List.utf8Encode]

/-- Bytes that do not descend leave the comparison to what follows only if they are equal. -/
theorem byte_lt {a b : Nat} {xs ys : List UInt8} (byte : b < 256) (le : a ≤ b)
    (next : a = b → xs < ys) : UInt8.ofNat a :: xs < UInt8.ofNat b :: ys := by
  rw [List.cons_lt_cons_iff]
  by_cases same : a = b
  · exact .inr ⟨congrArg UInt8.ofNat same, next same⟩
  · refine .inl (UInt8.lt_iff_toNat_lt.mpr ?_)
    rw [UInt8.toNat_ofNat', UInt8.toNat_ofNat']
    omega

theorem encode_lt {c d : Char} (h : c.toNat < d.toNat) (xs ys : List UInt8) :
    String.utf8EncodeChar c ++ xs < String.utf8EncodeChar d ++ ys := by
  have bound : d.val.toNat < 0x110000 := by
    rcases d.valid with small | ⟨-, large⟩
    · exact Nat.lt_trans small (by decide)
    · exact large
  change c.val.toNat < d.val.toNat at h
  unfold String.utf8EncodeChar
  generalize c.val.toNat = v at *
  generalize d.val.toNat = w at *
  dsimp only
  split_ifs <;> simp only [List.cons_append, List.nil_append]
  all_goals refine byte_lt (by omega) (by omega) fun lead => ?_
  -- Encodings of different lengths differ in the first byte, equally long ones at the latest in the
  -- last, so what follows them does not matter.
  any_goals omega
  · exact byte_lt (by omega) (by omega) fun second => absurd second (by omega)
  · refine byte_lt (by omega) (by omega) fun second => ?_
    exact byte_lt (by omega) (by omega) fun third => absurd third (by omega)
  · refine byte_lt (by omega) (by omega) fun second => ?_
    refine byte_lt (by omega) (by omega) fun third => ?_
    exact byte_lt (by omega) (by omega) fun fourth => absurd fourth (by omega)

theorem flatMap_encode_lt {xs ys : List Char} (h : before xs ys = true) :
    xs.flatMap String.utf8EncodeChar < ys.flatMap String.utf8EncodeChar := by
  induction xs generalizing ys with
  | nil =>
    cases ys with
    | nil => cases h
    | cons y ys =>
      obtain ⟨byte, rest, same⟩ := List.exists_cons_of_ne_nil (String.utf8EncodeChar_ne_nil (c := y))
      rw [List.flatMap_nil, List.flatMap_cons, same]
      exact List.nil_lt_cons _ _
  | cons x xs ih =>
    cases ys with
    | nil => cases h
    | cons y ys =>
      simp only [before, Bool.or_eq_true, decide_eq_true_eq, Bool.and_eq_true, beq_iff_eq] at h
      rw [List.flatMap_cons, List.flatMap_cons]
      rcases h with smaller | ⟨rfl, h⟩
      · exact encode_lt smaller _ _
      · exact List.append_left_lt (ih h)

theorem utf8Bytes_lt {left right : String} (h : before left.toList right.toList = true) :
    utf8Bytes left < utf8Bytes right := by
  rw [utf8Bytes_eq_flatMap, utf8Bytes_eq_flatMap]
  exact flatMap_encode_lt h

end Text

theorem ascending_keys {β : Type} (map : KeyMap β) :
    map.keys.Pairwise fun left right => Text.utf8Bytes left < Text.utf8Bytes right :=
  map.before_keys.imp Text.utf8Bytes_lt

end DataBind
