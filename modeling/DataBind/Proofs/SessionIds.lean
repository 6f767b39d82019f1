import DataBind.Proofs.MeteredIds
import DataBind.Proofs.ViewAccount

/-!
# Ids over a session

Whatever a session does, an element keeps the id that it has once. The ids written onto elements so far,
also by runs that were aborted, are those that the source has given, one for each time it was asked; with
a numbered source they are distinct.
-/

namespace DataBind

variable {σ : Type} {rules : BindRules} {ids : IdSource σ} {index : Nat} {element after : Element}
  {elements elementsAfter supplied more : List Element} {progress next final : Progress σ}
  {session : Session σ} {steps : List SessionStep}

def Element.KeepsId (before after : Element) : Prop :=
  ∀ id, before.id = some id → after.id = some id

/-- Element by element an id is kept. -/
def KeepIds (before after : List Element) : Prop :=
  List.Forall₂ Element.KeepsId before after

theorem KeepIds.refl (elements : List Element) : KeepIds elements elements :=
  List.forall₂_same.mpr fun _ _ _ known => known

theorem KeepIds.trans {first second third : List Element} (kept : KeepIds first second)
    (keptToo : KeepIds second third) : KeepIds first third := by
  induction kept generalizing third with
  | nil => exact keptToo
  | cons keeps kept ih =>
    cases keptToo with
    | cons keepsToo keptToo => exact .cons (fun id known => keepsToo id (keeps id known)) (ih keptToo)

theorem KeepIds.append (kept : KeepIds elements elementsAfter) (rest : List Element) :
    KeepIds (elements ++ rest) (elementsAfter ++ rest) :=
  List.rel_append kept (KeepIds.refl rest)

theorem KeepIds.getElem? (kept : KeepIds elements elementsAfter) {position : Nat} {id : String}
    (known : elements[position]?.bind (·.id) = some id) :
    elementsAfter[position]?.bind (·.id) = some id := by
  induction kept generalizing position with
  | nil => exact known
  | cons keeps kept ih =>
    cases position with
    | zero => exact keeps id known
    | succ position => exact ih known

theorem BindStep.keepsId (step : BindStep rules ids index element progress after next) :
    element.KeepsId after := by
  intro id known
  rcases step.ids_cases with ⟨-, rfl, -⟩ | ⟨other, -, unknown, -⟩
  · exact known
  · rw [unknown] at known
    cases known

theorem BindRun.keepIds (run : BindRun rules ids index elements progress elementsAfter final) :
    KeepIds elements elementsAfter := by
  induction run with
  | nil => exact .nil
  | cons step run ih => exact .cons step.keepsId ih

/-! ### Written ids -/

theorem writtenIds_append (kept : KeepIds elements elementsAfter) (rest : List Element) :
    writtenIds (elements ++ rest) (elementsAfter ++ rest) = writtenIds elements elementsAfter := by
  induction kept with
  | nil => exact writtenIds_self rest
  | cons keeps kept ih => rw [List.cons_append, List.cons_append, writtenIds, writtenIds, ih]

/-- What is written in two goes is what is written first and what is written then. -/
theorem writtenIds_trans {first second third : List Element} (kept : KeepIds first second)
    (keptToo : KeepIds second third) :
    (writtenIds first third).Perm (writtenIds first second ++ writtenIds second third) := by
  induction kept generalizing third with
  | nil =>
    cases keptToo
    exact .nil
  | @cons before between _ _ keeps kept ih =>
    cases keptToo with
    | @cons _ after _ _ keepsToo keptToo =>
      have rest := ih keptToo
      rw [writtenIds, writtenIds, writtenIds, writtenId?, writtenId?, writtenId?]
      cases given : before.id with
      | some id => simpa [keeps id given] using rest
      | none =>
        cases known : between.id with
        | some id => simpa [keepsToo id known] using rest.cons id
        | none =>
          cases after.id with
          | none => simpa using rest
          | some id => simpa using (rest.cons id).trans List.perm_middle.symm

theorem bindView_writes (options : Options) (ids : IdSource σ) (view : View) (state : σ)
    (log : List Registration) :
    let outcome := bindView options ids view state log
    KeepIds view.elements outcome.view.elements ∧
      ids.take (writtenIds view.elements outcome.view.elements).length state =
        (writtenIds view.elements outcome.view.elements, outcome.ids) := by
  intro outcome
  cases resolved : view.resolvedModel? options with
  | none =>
    have same : outcome = _ := bindView_unresolved resolved ids state log
    rw [same]
    refine ⟨.refl view.elements, ?_⟩
    dsimp only
    rw [writtenIds_self]
    rfl
  | some model =>
    obtain ⟨reached, reachedAfter, rest, final, failure, split, run, stop⟩ :=
      exists_run_of_bindElements options.rules ids view.elements 0 (.start state)
    have same : outcome = _ := bindView_of_run resolved split run stop log
    have account := idAccount_of_run split run stop
    rw [same, Progress.outcome_view, Progress.outcome_ids]
    refine ⟨?_, account.taken⟩
    rw [split]
    exact run.keepIds.append rest

/-! ### Sessions -/

/-- The ids written so far onto elements that came in without one. -/
def Session.written (ids : IdSource σ) (session : Session σ) (steps : List SessionStep) : List String :=
  writtenIds (session.supplied steps) (session.run ids steps).view.elements

/-- Supplied elements keep their ids, and what was written is what the source has given since `start`. -/
structure Session.Follows (ids : IdSource σ) (start : σ) (supplied : List Element)
    (session : Session σ) : Prop where
  kept : KeepIds supplied session.view.elements
  given : (writtenIds supplied session.view.elements).Perm
    (ids.take (writtenIds supplied session.view.elements).length start).1
  state : session.ids = (ids.take (writtenIds supplied session.view.elements).length start).2

theorem Session.follows_start (ids : IdSource σ) (session : Session σ) :
    session.Follows ids session.ids session.view.elements := by
  refine ⟨.refl _, ?_, ?_⟩
  · rw [writtenIds_self]
    exact .nil
  · rw [writtenIds_self]
    rfl

theorem Session.Follows.bind {start : σ} (follows : session.Follows ids start supplied)
    (options : Options) : (session.step ids (.bind options)).Follows ids start supplied := by
  obtain ⟨kept, taken⟩ := bindView_writes options ids session.view session.ids session.log
  have perm := writtenIds_trans follows.kept kept
  -- The source goes on from where the earlier steps have left it.
  have goesOn := ids.take_add (writtenIds supplied session.view.elements).length
    (writtenIds session.view.elements (session.step ids (.bind options)).view.elements).length start
  rw [← follows.state] at goesOn
  rw [step] at goesOn ⊢
  dsimp only at goesOn ⊢
  rw [taken, ← List.length_append, ← perm.length_eq] at goesOn
  refine ⟨follows.kept.trans kept, ?_, ?_⟩
  · rw [goesOn]
    exact perm.trans (follows.given.append_right _)
  · rw [goesOn]

theorem Session.Follows.step {start : σ} (follows : session.Follows ids start supplied)
    (step : SessionStep) : (session.step ids step).Follows ids start (supplied ++ step.supplied) := by
  cases step with
  | bind options =>
    rw [SessionStep.supplied, List.append_nil]
    exact follows.bind options
  | append element =>
    have same := writtenIds_append follows.kept [element]
    refine ⟨follows.kept.append [element], ?_, ?_⟩
    · rw [SessionStep.supplied, Session.step, same]
      exact follows.given
    · rw [SessionStep.supplied, Session.step, same]
      exact follows.state
  | setModel model =>
    rw [SessionStep.supplied, List.append_nil]
    exact ⟨follows.kept, follows.given, follows.state⟩

theorem Session.Follows.run {start : σ} (follows : session.Follows ids start supplied)
    (steps : List SessionStep) :
    (session.run ids steps).Follows ids start (supplied ++ steps.flatMap SessionStep.supplied) := by
  induction steps generalizing session supplied with
  | nil =>
    rw [List.flatMap_nil, List.append_nil]
    exact follows
  | cons step steps ih =>
    rw [List.flatMap_cons, ← List.append_assoc]
    exact ih (follows.step step)

theorem Session.run_follows (ids : IdSource σ) (session : Session σ) (steps : List SessionStep) :
    (session.run ids steps).Follows ids session.ids (session.supplied steps) :=
  (session.follows_start ids).run steps

theorem Session.id_kept (ids : IdSource σ) (session : Session σ) (earlier later : List SessionStep)
    {position : Nat} {id : String}
    (known : (session.run ids earlier).view.elements[position]?.bind (·.id) = some id) :
    (session.run ids (earlier ++ later)).view.elements[position]?.bind (·.id) = some id := by
  have kept := (Session.run_follows ids (session.run ids earlier) later).kept
  obtain ⟨element, found, -⟩ := Option.bind_eq_some_iff.mp known
  obtain ⟨inside, -⟩ := List.getElem?_eq_some_iff.mp found
  rw [Session.run, List.foldl_append]
  refine kept.getElem? ?_
  rw [Session.supplied, List.getElem?_append_left inside]
  exact known

theorem Session.asked_eq (ids : IdSource σ) (session : Session σ) (steps : List SessionStep) :
    session.asked ids steps = (session.written ids steps).length := by
  have follows := session.metered.run_follows ids.metered steps
  have plain : (session.metered.run ids.metered steps).view = (session.run ids steps).view :=
    congrArg Session.view (Session.run_metered ids session.metered steps)
  have count := congrArg Prod.snd follows.state
  rw [Session.asked, count, plain, Session.metered, IdSource.take_metered, Nat.zero_add]
  rfl

/-- What a session with a numbered source does with ids. -/
structure SessionAccount (stem : String) (session : Session UInt64) (steps : List SessionStep) : Prop where
  kept : ∀ earlier later, steps = earlier ++ later → ∀ (position : Nat) (id : String),
    (session.run (.numbered stem) earlier).view.elements[position]?.bind (·.id) = some id →
      (session.run (.numbered stem) steps).view.elements[position]?.bind (·.id) = some id
  distinct : (session.written (.numbered stem) steps).Nodup
  counted : session.asked (.numbered stem) steps = (session.written (.numbered stem) steps).length
  given : (session.written (.numbered stem) steps).Perm
    ((List.range (session.asked (.numbered stem) steps)).map (IdSource.numberedId stem session.ids))

/-- Over every session with one numbered source, elements keep their ids, the ids written by all its runs
are distinct, and one was taken for each. -/
theorem session_ids (stem : String) (session : Session UInt64) (steps : List SessionStep)
    (few : session.asked (.numbered stem) steps < UInt64.size) : SessionAccount stem session steps := by
  have counted := session.asked_eq (.numbered stem) steps
  have given : (session.written (.numbered stem) steps).Perm
      ((List.range (session.asked (.numbered stem) steps)).map
        (IdSource.numberedId stem session.ids)) := by
    have taken := (session.run_follows (.numbered stem) steps).given
    rw [IdSource.take_numbered] at taken
    rw [counted]
    exact taken
  refine ⟨?_, ?_, counted, given⟩
  · rintro earlier later rfl position id known
    exact session.id_kept (.numbered stem) earlier later known
  · exact given.nodup_iff.mpr (IdSource.nodup_numberedId stem session.ids few.le)

/-- The first run stops at the refused element, after it has written an id. -/
def resumedSession : Session UInt64 where
  view := {
    model := some "person"
    elements := [
      { attributes := KeyMap.ofList [("data-bind", "value:a")] },
      { id := some "p", attributes := KeyMap.ofList [("data-bind", "value:")] },
      { attributes := KeyMap.ofList [("data-bind", "class:b")] }] }
  ids := IdSource.firstNumber
  log := []

/-- An aborted run, one without a model, and one that skips. -/
def resumedSteps : List SessionStep :=
  [.bind {}, .append { attributes := KeyMap.ofList [("data-bind", "events:blur")] }, .setModel none,
    .bind { onError := .skip }, .setModel (some "pet"), .bind { onError := .skip }]

theorem session_ids_resumed :
    resumedSession.written (.numbered "e") [.bind {}] = ["e1"] ∧
      resumedSession.written (.numbered "e") resumedSteps = ["e1", "e2", "e3"] ∧
      resumedSession.asked (.numbered "e") resumedSteps < UInt64.size ∧
      SessionAccount "e" resumedSession resumedSteps := by
  have few : resumedSession.asked (.numbered "e") resumedSteps < UInt64.size := by decide +kernel
  exact ⟨by decide +kernel, by decide +kernel, few, session_ids "e" resumedSession resumedSteps few⟩

end DataBind
