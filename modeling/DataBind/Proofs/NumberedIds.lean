import DataBind.Ids
import Mathlib.Data.List.Nodup
import Std.Data.String.ToNat

/-!
# Ids taken in a row

`IdSource.take` asks a source several times. A numbered source gives its stem with consecutive numbers,
so its ids are distinct until the counter has gone all the way round.
-/

namespace DataBind.IdSource

variable {σ : Type}

/-- The next ids and the state after them. -/
def take (ids : IdSource σ) : Nat → σ → List String × σ
  | 0, state => ([], state)
  | n + 1, state =>
    let (id, state) := ids.next state
    let (rest, state) := take ids n state
    (id :: rest, state)

theorem take_succ (ids : IdSource σ) (n : Nat) (state : σ) :
    ids.take (n + 1) state =
      ((ids.next state).1 :: (ids.take n (ids.next state).2).1, (ids.take n (ids.next state).2).2) := rfl

theorem length_take (ids : IdSource σ) (n : Nat) (state : σ) : (ids.take n state).1.length = n := by
  induction n generalizing state with
  | zero => rfl
  | succ n ih => rw [take_succ, List.length_cons, ih]

theorem take_add (ids : IdSource σ) (m n : Nat) (state : σ) :
    ids.take (m + n) state =
      ((ids.take m state).1 ++ (ids.take n (ids.take m state).2).1, (ids.take n (ids.take m state).2).2) := by
  induction m generalizing state with
  | zero => rw [Nat.zero_add]; rfl
  | succ m ih => rw [Nat.succ_add, take_succ, take_succ, ih]; rfl

/-- The id that a numbered source gives after `k` others. -/
def numberedId (stem : String) (count : UInt64) (k : Nat) : String :=
  stem ++ toString (count + UInt64.ofNat k).toNat

theorem count_succ (count : UInt64) (k : Nat) :
    count + 1 + UInt64.ofNat k = count + UInt64.ofNat (k + 1) := by
  rw [UInt64.ofNat_add, UInt64.add_assoc, UInt64.add_comm 1]
  rfl

theorem take_numbered (stem : String) (count : UInt64) (n : Nat) :
    (numbered stem).take n count =
      ((List.range n).map (numberedId stem count), count + UInt64.ofNat n) := by
  induction n generalizing count with
  | zero => simp [take]
  | succ n ih =>
    have ids : (List.range n).map (numberedId stem (count + 1)) =
        (List.range n).map (numberedId stem count ∘ Nat.succ) := by
      refine List.map_congr_left fun k _ => ?_
      simp only [numberedId, count_succ, Function.comp_apply, Nat.succ_eq_add_one]
    have next : (numbered stem).next count = (numberedId stem count 0, count + 1) := by
      simp [numbered, numberedId]
    rw [take_succ, next, ih, ids, count_succ, List.range_succ_eq_map, List.map_cons, List.map_map]

theorem numberedId_inj {stem : String} {count : UInt64} {j k : Nat} (hj : j < UInt64.size)
    (hk : k < UInt64.size) (same : numberedId stem count j = numberedId stem count k) : j = k := by
  have digits : (count + UInt64.ofNat j).toNat = (count + UInt64.ofNat k).toNat :=
    Nat.repr_injective ((String.append_right_inj stem).mp same)
  rw [UInt64.toNat_add, UInt64.toNat_add, UInt64.toNat_ofNat', UInt64.toNat_ofNat'] at digits
  unfold UInt64.size at hj hk
  omega

theorem nodup_numberedId (stem : String) (count : UInt64) {n : Nat} (few : n ≤ UInt64.size) :
    ((List.range n).map (numberedId stem count)).Nodup := by
  refine List.Nodup.map_on (fun j hj k hk same => ?_) List.nodup_range
  rw [List.mem_range] at hj hk
  exact numberedId_inj (by omega) (by omega) same

end DataBind.IdSource
