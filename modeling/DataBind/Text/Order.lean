/-!
# Order of texts

`before` compares code point by code point, a proper start first. It is a strict total order.
-/

namespace DataBind.Text

def before : List Char → List Char → Bool
  | _, [] => false
  | [], _ :: _ => true
  | a :: as, b :: bs => a.toNat < b.toNat || (a == b && before as bs)

theorem before_irrefl (cs : List Char) : before cs cs = false := by
  induction cs with
  | nil => rfl
  | cons c cs ih => simp [before, ih]

theorem before_trans {xs ys zs : List Char}
    (hxy : before xs ys = true) (hyz : before ys zs = true) :
    before xs zs = true := by
  induction xs generalizing ys zs with
  | nil =>
    cases zs with
    | nil => cases ys <;> simp [before] at hyz
    | cons z zs => rfl
  | cons x xs ih =>
    cases ys with
    | nil => simp [before] at hxy
    | cons y ys =>
      cases zs with
      | nil => simp [before] at hyz
      | cons z zs =>
        simp only [before, Bool.or_eq_true, decide_eq_true_eq, Bool.and_eq_true, beq_iff_eq] at *
        rcases hxy with hxy | ⟨rfl, hxy⟩
        · rcases hyz with hyz | ⟨rfl, hyz⟩
          · exact .inl (by omega)
          · exact .inl hxy
        · rcases hyz with hyz | ⟨rfl, hyz⟩
          · exact .inl hyz
          · exact .inr ⟨rfl, ih hxy hyz⟩

theorem before_trichotomy (xs ys : List Char) :
    before xs ys = true ∨ xs = ys ∨ before ys xs = true := by
  induction xs generalizing ys with
  | nil => cases ys <;> simp [before]
  | cons x xs ih =>
    cases ys with
    | nil => simp [before]
    | cons y ys =>
      rcases Nat.lt_trichotomy x.toNat y.toNat with h | h | h
      · simp [before, h]
      · have hxy : x = y := Char.toNat_inj.mp h
        subst hxy
        rcases ih ys with h | h | h <;> simp [before, h]
      · simp [before, h]

end DataBind.Text
