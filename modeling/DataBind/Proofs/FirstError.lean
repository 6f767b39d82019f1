/-!
# Reading a list in order

Reading every item of a list succeeds if each reading does, and otherwise fails with the error of
the first item that is refused.
-/

namespace DataBind

universe u

variable {α ε β : Type u} {f : α → Except ε β}

instance decidableEqExcept [DecidableEq ε] [DecidableEq α] : DecidableEq (Except ε α)
  | .ok a, .ok b => decidable_of_iff (a = b) ⟨congrArg Except.ok, Except.ok.inj⟩
  | .error a, .error b => decidable_of_iff (a = b) ⟨congrArg Except.error, Except.error.inj⟩
  | .ok _, .error _ => .isFalse nofun
  | .error _, .ok _ => .isFalse nofun

theorem map_eq_ok {g : α → β} {result : Except ε α} {b : β} :
    result.map g = .ok b ↔ ∃ a, result = .ok a ∧ g a = b := by
  cases result <;> simp [Except.map]

theorem map_eq_error {g : α → β} {result : Except ε α} {e : ε} :
    result.map g = .error e ↔ result = .error e := by
  cases result <;> simp [Except.map]

theorem mapM_eq_ok {xs : List α} {ys : List β} : xs.mapM f = .ok ys ↔ xs.map f = ys.map .ok := by
  induction xs generalizing ys with
  | nil => cases ys <;> simp [pure, Except.pure]
  | cons x xs ih =>
    rw [List.mapM_cons]
    cases first : f x with
    | error e => cases ys <;> simp [bind, Except.bind, first]
    | ok y =>
      cases rest : xs.mapM f with
      | error e => cases ys <;> simp [bind, Except.bind, first, ← ih, rest]
      | ok values => cases ys <;> simp [bind, Except.bind, pure, Except.pure, first, ← ih, rest]

theorem mapM_eq_error {xs : List α} {e : ε} :
    xs.mapM f = .error e ↔
      ∃ before x after, xs = before ++ x :: after ∧ (∀ earlier ∈ before, ∃ y, f earlier = .ok y) ∧
        f x = .error e := by
  induction xs with
  | nil => simp [pure, Except.pure]
  | cons x xs ih =>
    rw [List.mapM_cons]
    constructor
    · intro h
      cases first : f x with
      | error cause =>
        rw [first] at h
        cases h
        exact ⟨[], x, xs, rfl, by simp, first⟩
      | ok y =>
        have rest : xs.mapM f = .error e := by
          cases rest : xs.mapM f with
          | error cause =>
            rw [first, rest] at h
            exact h
          | ok values =>
            rw [first, rest] at h
            cases h
        obtain ⟨before, bad, after, rfl, good, refused⟩ := ih.mp rest
        refine ⟨x :: before, bad, after, rfl, ?_, refused⟩
        exact List.forall_mem_cons.mpr ⟨⟨y, first⟩, good⟩
    · rintro ⟨before, bad, after, same, good, refused⟩
      cases before with
      | nil =>
        cases same
        rw [refused]
        rfl
      | cons head before =>
        cases same
        obtain ⟨⟨y, first⟩, good⟩ := List.forall_mem_cons.mp good
        rw [first, ih.mpr ⟨before, bad, after, rfl, good, refused⟩]
        rfl

theorem exists_of_mapM_eq_ok {xs : List α} {ys : List β} (h : xs.mapM f = .ok ys) {y : β}
    (member : y ∈ ys) : ∃ x ∈ xs, f x = .ok y := by
  have image : Except.ok y ∈ xs.map f := mapM_eq_ok.mp h ▸ List.mem_map_of_mem member
  exact List.mem_map.mp image

theorem map_of_mapM_eq_ok {g : β → α} (back : ∀ x y, f x = .ok y → g y = x) {xs : List α}
    {ys : List β} (h : xs.mapM f = .ok ys) : ys.map g = xs := by
  rw [mapM_eq_ok] at h
  induction xs generalizing ys with
  | nil => simpa using h.symm
  | cons x xs ih =>
    cases ys with
    | nil => simp at h
    | cons y ys =>
      obtain ⟨first, rest⟩ := List.cons.inj h
      rw [List.map_cons, back x y first, ih rest]

theorem exists_mapM_eq_ok {xs : List α} :
    (∃ ys, xs.mapM f = .ok ys) ↔ ∀ x ∈ xs, ∃ y, f x = .ok y := by
  constructor
  · rintro ⟨ys, h⟩ x member
    have image : f x ∈ ys.map .ok := mapM_eq_ok.mp h ▸ List.mem_map_of_mem member
    obtain ⟨y, -, same⟩ := List.mem_map.mp image
    exact ⟨y, same.symm⟩
  · intro good
    cases h : xs.mapM f with
    | ok ys => exact ⟨ys, rfl⟩
    | error e =>
      obtain ⟨before, x, after, rfl, -, refused⟩ := mapM_eq_error.mp h
      obtain ⟨y, accepted⟩ := good x (by simp)
      rw [refused] at accepted
      cases accepted

end DataBind
