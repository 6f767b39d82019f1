import DataBind.Proofs.NumberedIds

/-!
# Sources that share a counter

Numbered sources of one family step one counter, whatever their stems. Their numbers do not repeat, yet
an id is a stem and a number with nothing in between: two calls give the same id exactly if the one stem
is the other with the first digits of the other's number behind it. So ids are distinct where no stem is
another one with only digits behind.
-/

namespace DataBind.IdSource

/-- The ids of calls in a row on sources of one family, told by the stem of the source that each call is
made on. -/
def takeTurns : List String → UInt64 → List String × UInt64
  | [], count => ([], count)
  | stem :: stems, count =>
    let (id, count) := (numbered stem).next count
    let (rest, count) := takeTurns stems count
    (id :: rest, count)

theorem takeTurns_cons (stem : String) (stems : List String) (count : UInt64) :
    takeTurns (stem :: stems) count =
      ((stem ++ toString count.toNat) :: (takeTurns stems (count + 1)).1,
        (takeTurns stems (count + 1)).2) := rfl

/-- The digits that call `k` writes behind its stem. -/
def numeral (count : UInt64) (k : Nat) : String :=
  toString (count + UInt64.ofNat k).toNat

theorem numeral_succ (count : UInt64) (k : Nat) : numeral (count + 1) k = numeral count (k + 1) := by
  rw [numeral, numeral, count_succ]

theorem getElem?_takeTurns (stems : List String) (count : UInt64) (k : Nat) :
    (takeTurns stems count).1[k]? = stems[k]?.map (· ++ numeral count k) := by
  induction stems generalizing count k with
  | nil => rfl
  | cons stem stems ih =>
    rw [takeTurns_cons]
    cases k with
    | zero => simp [numeral]
    | succ k => simp [ih, numeral_succ]

theorem numeral_inj {count : UInt64} {j k : Nat} (hj : j < UInt64.size) (hk : k < UInt64.size)
    (same : numeral count j = numeral count k) : j = k :=
  numberedId_inj hj hk (congrArg ("" ++ ·) same)

theorem isDigit_of_mem_numeral {count : UInt64} {k : Nat} {c : Char}
    (member : c ∈ (numeral count k).toList) : c.isDigit := by
  rw [numeral, Nat.toString_eq_repr, Nat.toList_repr] at member
  exact Nat.isDigit_of_mem_toDigits (by decide) (by decide) member

/-! ### Clashes -/

/-- The digits that call `k` has more in its stem than call `j`, call `j` has more in its number. -/
def Clash (stems : List String) (count : UInt64) (j k : Nat) : Prop :=
  ∃ stem digits, digits ≠ "" ∧ stems[j]? = some stem ∧ stems[k]? = some (stem ++ digits) ∧
    numeral count j = digits ++ numeral count k

def OnlyDigitsBehind (stem longer : String) : Prop :=
  stem.toList <+: longer.toList ∧ (longer.toList.drop stem.toList.length).all Char.isDigit

instance (stem longer : String) : Decidable (OnlyDigitsBehind stem longer) :=
  inferInstanceAs (Decidable (_ ∧ _))

theorem append_eq_append_cases {stem other end₁ end₂ : String} (same : stem ++ end₁ = other ++ end₂) :
    (∃ digits, other = stem ++ digits ∧ end₁ = digits ++ end₂) ∨
      ∃ digits, stem = other ++ digits ∧ end₂ = digits ++ end₁ := by
  have lists : stem.toList ++ end₁.toList = other.toList ++ end₂.toList := by
    simpa using congrArg String.toList same
  rcases List.append_eq_append_iff.mp lists with ⟨digits, front, back⟩ | ⟨digits, front, back⟩
  · refine .inl ⟨String.ofList digits, ?_, ?_⟩ <;> apply String.toList_injective <;> simp [front, back]
  · refine .inr ⟨String.ofList digits, ?_, ?_⟩ <;> apply String.toList_injective <;> simp [front, back]

theorem self_ne_append {digits : String} (nonempty : digits ≠ "") (stem : String) :
    stem ≠ stem ++ digits := by
  intro same
  have padded : stem ++ "" = stem ++ digits := by simpa using same
  exact nonempty ((String.append_right_inj stem).mp padded).symm

theorem Clash.same_id {stems : List String} {count : UInt64} {j k : Nat} (clash : Clash stems count j k) :
    ∃ id, (takeTurns stems count).1[j]? = some id ∧ (takeTurns stems count).1[k]? = some id := by
  obtain ⟨stem, digits, -, first, second, numbers⟩ := clash
  refine ⟨stem ++ numeral count j, ?_, ?_⟩
  · rw [getElem?_takeTurns, first]
    rfl
  · rw [getElem?_takeTurns, second, numbers, ← String.append_assoc]
    rfl

theorem Clash.ne {stems : List String} {count : UInt64} {j k : Nat} (clash : Clash stems count j k) :
    j ≠ k := by
  rintro rfl
  obtain ⟨stem, digits, nonempty, first, second, -⟩ := clash
  exact self_ne_append nonempty stem (Option.some.inj (first.symm.trans second))

theorem clash_of_same_id {stems : List String} {count : UInt64} {j k : Nat} {id : String}
    (few : stems.length ≤ UInt64.size) (different : j ≠ k)
    (first : (takeTurns stems count).1[j]? = some id) (second : (takeTurns stems count).1[k]? = some id) :
    Clash stems count j k ∨ Clash stems count k j := by
  rw [getElem?_takeTurns, Option.map_eq_some_iff] at first second
  obtain ⟨stem, hj, first⟩ := first
  obtain ⟨other, hk, second⟩ := second
  obtain ⟨below, -⟩ := List.getElem?_eq_some_iff.mp hj
  obtain ⟨belowToo, -⟩ := List.getElem?_eq_some_iff.mp hk
  have apart : numeral count j ≠ numeral count k := fun same =>
    different (numeral_inj (by omega) (by omega) same)
  rcases append_eq_append_cases (first.trans second.symm) with
    ⟨digits, rfl, numbers⟩ | ⟨digits, rfl, numbers⟩
  · refine .inl ⟨stem, digits, ?_, hj, hk, numbers⟩
    rintro rfl
    exact apart (by simpa using numbers)
  · refine .inr ⟨other, digits, ?_, hk, hj, numbers⟩
    rintro rfl
    exact apart (by simpa using numbers.symm)

theorem Clash.onlyDigitsBehind {stems : List String} {count : UInt64} {j k : Nat}
    (clash : Clash stems count j k) :
    ∃ stem ∈ stems, ∃ longer ∈ stems, stem ≠ longer ∧ OnlyDigitsBehind stem longer := by
  obtain ⟨stem, digits, nonempty, first, second, numbers⟩ := clash
  refine ⟨stem, List.mem_of_getElem? first, stem ++ digits, List.mem_of_getElem? second,
    self_ne_append nonempty stem, by simp, List.all_eq_true.mpr ?_⟩
  intro c member
  have inside : c ∈ (numeral count j).toList := by
    rw [numbers, String.toList_append, List.mem_append]
    exact .inl (by simpa using member)
  exact isDigit_of_mem_numeral inside

/-- The ids of a family are distinct exactly if no two calls clash, and none do if no stem is another one
with only digits behind. -/
theorem nodup_takeTurns_iff (stems : List String) (count : UInt64)
    (few : stems.length ≤ UInt64.size) :
    ((takeTurns stems count).1.Nodup ↔ ∀ j k, ¬Clash stems count j k) ∧
      ((∀ stem ∈ stems, ∀ longer ∈ stems, OnlyDigitsBehind stem longer → stem = longer) →
        (takeTurns stems count).1.Nodup) := by
  have distinct : (takeTurns stems count).1.Nodup ↔ ∀ j k, ¬Clash stems count j k := by
    rw [List.nodup_iff_getElem?_ne_getElem?]
    constructor
    · intro apart j k clash
      obtain ⟨id, first, second⟩ := clash.same_id
      obtain ⟨inside, -⟩ := List.getElem?_eq_some_iff.mp first
      obtain ⟨insideToo, -⟩ := List.getElem?_eq_some_iff.mp second
      rcases Nat.lt_or_gt_of_ne clash.ne with before | after
      · exact apart j k before insideToo (first.trans second.symm)
      · exact apart k j after inside (second.trans first.symm)
    · intro free j k before inside same
      have second := List.getElem?_eq_getElem inside
      rcases clash_of_same_id few (Nat.ne_of_lt before) (same.trans second) second with clash | clash
      · exact free j k clash
      · exact free k j clash
  refine ⟨distinct, fun separate => distinct.mpr fun j k clash => ?_⟩
  obtain ⟨stem, member, longer, memberToo, different, behind⟩ := clash.onlyDigitsBehind
  exact different (separate stem member longer memberToo behind)

/-- Stems that end in no digit, one of them used twice and one that starts another. -/
theorem nodup_takeTurns_mixed :
    ["t_", "", "t_x", "t_"].length ≤ UInt64.size ∧
      (∀ stem ∈ ["t_", "", "t_x", "t_"], ∀ longer ∈ ["t_", "", "t_x", "t_"],
        OnlyDigitsBehind stem longer → stem = longer) ∧
      (takeTurns ["t_", "", "t_x", "t_"] 9).1 = ["t_9", "10", "t_x11", "t_12"] ∧
      (takeTurns ["t_", "", "t_x", "t_"] 9).1.Nodup ∧ ∀ j k, ¬Clash ["t_", "", "t_x", "t_"] 9 j k := by
  have few : ["t_", "", "t_x", "t_"].length ≤ UInt64.size := by simp [UInt64.size]
  have separate : ∀ stem ∈ ["t_", "", "t_x", "t_"], ∀ longer ∈ ["t_", "", "t_x", "t_"],
      OnlyDigitsBehind stem longer → stem = longer := by decide +kernel
  obtain ⟨exactly, enough⟩ := nodup_takeTurns_iff ["t_", "", "t_x", "t_"] 9 few
  have distinct := enough separate
  exact ⟨few, separate, by decide +kernel, distinct, exactly.mp distinct⟩

/-- The first call is on a source with the stem `a1`, ten more are on one with the stem `a`. -/
theorem takeTurns_repeats :
    ("a1" :: List.replicate 10 "a").length < UInt64.size ∧
      (takeTurns ("a1" :: List.replicate 10 "a") firstNumber).1 =
        ["a11", "a2", "a3", "a4", "a5", "a6", "a7", "a8", "a9", "a10", "a11"] ∧
      ¬(takeTurns ("a1" :: List.replicate 10 "a") firstNumber).1.Nodup := by
  decide +kernel

end DataBind.IdSource
