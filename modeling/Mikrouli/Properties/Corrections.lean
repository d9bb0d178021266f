import Mikrouli.Lib.Events
import Mikrouli.Model.Dashboard

/-! Whose correction an answered save changes.

The page has one correction and any number of saves under way, and the action that an answer
dispatches does not say which save it answers: it changes whichever correction is open. While no
correction is opened beside another link's save, that is the right one. -/

namespace Mikrouli.Web.DashboardPage

variable {js : JsString} {p p' : DashboardPage} {e : Event}

/-- An open correction of another link stays as it is, with what has been entered. -/
def KeepsOthers (p p' : DashboardPage) (slug : String) : Prop :=
  ∀ c, p.correction = some c → c.slug ≠ slug → p'.correction = some c ∧ p'.draft = p.draft

/-- No correction is opened for a link while another link's destination is being saved. -/
def Careful (p : DashboardPage) : Event → Prop
  | .openCorrection slug => ∀ s ∈ p.saves, s.slug = slug
  | _ => True

instance (p : DashboardPage) (e : Event) : Decidable (p.Careful e) := by
  cases e <;> unfold Careful <;> infer_instance

/-- The page after some events, all of them allowed. -/
abbrev Reached (js : JsString) (allowed : DashboardPage → Event → Prop) (p : DashboardPage) : Prop :=
  Events.Run (step js) allowed initial p

/-! ### Drafts -/

/-- There is a draft just where there is an editor. -/
def Fits (js : JsString) (p : DashboardPage) : Prop := p.draft.isSome = (p.editorRow js).isSome

@[simp] theorem correction_render {before after : DashboardPage} :
    (before.render js after).correction = after.correction := rfl

@[simp] theorem saves_render {before after : DashboardPage} :
    (before.render js after).saves = after.saves := rfl

@[simp] theorem editorRow_render {before after : DashboardPage} :
    (before.render js after).editorRow js = after.editorRow js := rfl

theorem fits_render (before after : DashboardPage) : Fits js (before.render js after) := by
  rw [Fits, editorRow_render, render, Option.isSome_map]

theorem fits_initial : Fits js initial := rfl

theorem fits_step (taken : p.step js e = some p') : Fits js p' := by
  cases e with
  | list links | listFailed message | retireFailed message | narrow fragment =>
    cases taken
    exact fits_render _ _
  | openCorrection slug =>
    obtain ⟨-, ⟨⟩⟩ := Option.ite_none_right_eq_some.mp taken
    exact fits_render _ _
  | edit draft =>
    obtain ⟨works, ⟨⟩⟩ := Option.ite_none_right_eq_some.mp taken
    rw [enabled, Bool.and_eq_true] at works
    -- an entry needs an editor
    exact works.1.symm
  | confirmCorrection =>
    simp only [DashboardPage.step] at taken
    split at taken
    · obtain ⟨-, ⟨⟩⟩ := Option.ite_none_right_eq_some.mp taken
      exact fits_render _ _
    · cases taken
  | cancelCorrection =>
    obtain ⟨-, ⟨⟩⟩ := Option.ite_none_right_eq_some.mp taken
    exact fits_render _ _
  | settle n outcome =>
    obtain ⟨-, ⟨⟩⟩ := Option.ite_none_right_eq_some.mp taken
    cases outcome <;> exact fits_render _ _

theorem fits_of_reached {allowed : DashboardPage → Event → Prop} (reached : Reached js allowed p) :
    Fits js p :=
  reached.invariant (fun _ _ _ _ _ => fits_step) fits_initial

/-- Where the editor stays in its row, so does its draft. -/
theorem draft_render_self {after : DashboardPage} (fits : Fits js p)
    (row : after.editorRow js = p.editorRow js) (fragment : after.fragment = p.fragment) :
    (p.render js after).draft = p.draft := by
  rw [render, row, fragment]
  cases here : p.editorRow js with
  | none =>
    rw [Fits, here] at fits
    exact (Option.isNone_iff_eq_none.mp (by simpa using fits)).symm
  | some link =>
    rw [Fits, here] at fits
    obtain ⟨draft, entered⟩ := Option.isSome_iff_exists.mp fits
    simp [entered]

/-! ### One save after another -/

/-- All saves under way are of the open correction. -/
def Alone (p : DashboardPage) : Prop := ∀ s ∈ p.saves, ∀ c, p.correction = some c → s.slug = c.slug

theorem Alone.of_le {after : DashboardPage} (alone : p.Alone) (saves : after.saves ⊆ p.saves)
    (correction : ∀ c, after.correction = some c → ∃ c', p.correction = some c' ∧ c'.slug = c.slug) :
    after.Alone := by
  intro s member c here
  obtain ⟨c', before, same⟩ := correction c here
  exact (alone s (saves member) c' before).trans same

theorem slug_refused {state : Option CorrectionState} {message : String} {c : CorrectionState}
    (refused : correctionReducer state (.refused message) = some c) :
    ∃ c', state = some c' ∧ c'.slug = c.slug := by
  obtain ⟨c', before, rfl⟩ := Option.map_eq_some_iff.mp refused
  exact ⟨c', before, rfl⟩

theorem Alone.settled {n : Nat} {outcome : Outcome} (alone : p.Alone) :
    (p.onSettled js n outcome).Alone := by
  cases outcome with
  | saved => exact alone.of_le (List.eraseIdx_subset ..) nofun
  | refused message => exact alone.of_le (List.eraseIdx_subset ..) fun _ => slug_refused

theorem Alone.step (alone : p.Alone) (careful : p.Careful e) (taken : p.step js e = some p') :
    p'.Alone := by
  cases e with
  | list links | listFailed message | retireFailed message | narrow fragment =>
    cases taken
    exact alone
  | openCorrection slug =>
    obtain ⟨-, ⟨⟩⟩ := Option.ite_none_right_eq_some.mp taken
    intro s member c here
    cases here
    exact careful s member
  | edit draft =>
    obtain ⟨-, ⟨⟩⟩ := Option.ite_none_right_eq_some.mp taken
    exact alone
  | confirmCorrection =>
    simp only [DashboardPage.step] at taken
    split at taken
    next c url here _ =>
      obtain ⟨-, ⟨⟩⟩ := Option.ite_none_right_eq_some.mp taken
      intro s member c' after
      obtain ⟨c₀, before, rfl⟩ := Option.map_eq_some_iff.mp after
      rcases List.mem_append.mp member with older | new
      · exact alone s older c₀ before
      -- the new save is of the correction that is open
      · rw [List.mem_singleton] at new
        rw [here] at before
        cases before
        rw [new]
    · cases taken
  | cancelCorrection =>
    obtain ⟨-, ⟨⟩⟩ := Option.ite_none_right_eq_some.mp taken
    exact alone.of_le (List.Subset.refl _) nofun
  | settle n outcome =>
    obtain ⟨-, ⟨⟩⟩ := Option.ite_none_right_eq_some.mp taken
    exact alone.settled

theorem alone_of_reached (reached : Reached js Careful p) : p.Alone :=
  reached.invariant (fun _ _ _ alone careful => alone.step careful) nofun

/-! ### Answers -/

/-- What an answer leaves alone: no correction of another link is open, but for a refusal that this
correction states already. -/
def Harmless (p : DashboardPage) (slug : String) (outcome : Outcome) : Prop :=
  ∀ c, p.correction = some c → c.slug ≠ slug →
    ∃ message, outcome = .refused message ∧ c.phase = .editing ∧ c.error = some message

theorem keepsOthers_settled_iff {n : Nat} {slug : String} {outcome : Outcome} (fits : Fits js p) :
    p.KeepsOthers (p.onSettled js n outcome) slug ↔ p.Harmless slug outcome := by
  constructor
  · intro keeps c here other
    obtain ⟨kept, -⟩ := keeps c here other
    cases outcome with
    | saved => cases kept
    | refused message =>
      have changed : { c with phase := .editing, error := some message } = c := by
        have reduced : correctionReducer p.correction (.refused message) = some c := kept
        rw [here] at reduced
        exact Option.some.inj reduced
      refine ⟨message, rfl, ?_, ?_⟩
      · rw [← changed]
      · rw [← changed]
  · intro harmless c here other
    obtain ⟨message, rfl, editing, stated⟩ := harmless c here other
    have same : correctionReducer p.correction (.refused message) = p.correction := by
      obtain ⟨slug', phase, error⟩ := c
      cases editing
      cases stated
      rw [here]
      rfl
    have row : editorRow js { p with
        saves := p.saves.eraseIdx n
        correction := correctionReducer p.correction (.refused message) } = p.editorRow js := by
      rw [same]
      rfl
    exact ⟨same.trans here, draft_render_self fits row rfl⟩

/-- In every run in which no correction is opened beside another link's save, an answered save leaves
the corrections of other links alone. In any run it does just where it is harmless. -/
theorem answers_keep_others (js : JsString) (p p' : DashboardPage) (n : Nat) (outcome : Outcome)
    (s : Save) (awaited : p.saves[n]? = some s) (taken : p.step js (.settle n outcome) = some p') :
    (Reached js Careful p → p.KeepsOthers p' s.slug) ∧
      (Reached js Events.anything p → (p.KeepsOthers p' s.slug ↔ p.Harmless s.slug outcome)) := by
  obtain ⟨-, ⟨⟩⟩ := Option.ite_none_right_eq_some.mp taken
  constructor
  · intro reached c here other
    have member : s ∈ p.saves := List.mem_of_getElem? awaited
    -- whatever is open is of the save's own link
    exact absurd (alone_of_reached reached s member c here).symm other
  · intro reached
    exact keepsOthers_settled_iff (fits_of_reached reached)

/-! ### Two links -/

/-- The page when a correction of `/a` is being saved. -/
def saving : List Event :=
  [.list [⟨"/a", "https://a.example"⟩, ⟨"/b", "https://b.example"⟩], .openCorrection "a",
    .confirmCorrection]

/-- A refusal is stated in the correction that was refused. -/
theorem answers_keep_others_alone : ∃ p p', Reached .plain Careful p ∧
    p.step .plain (.settle 0 (.refused "not public")) = some p' ∧
    p'.correction = some ⟨"a", .editing, some "not public"⟩ ∧ p.KeepsOthers p' "a" := by
  have played : ((saving.foldlM (Events.guarded (step .plain) Careful) initial).any fun p =>
      decide (p.saves[0]? = some ⟨"a", "https://a.example"⟩) &&
        (p.step .plain (.settle 0 (.refused "not public"))).any fun p' =>
          decide (p'.correction = some ⟨"a", .editing, some "not public"⟩)) = true := by
    decide +kernel
  obtain ⟨p, run, rest⟩ := (Option.any_eq_true _ _).mp played
  rw [Bool.and_eq_true, decide_eq_true_eq] at rest
  obtain ⟨awaited, answered⟩ := rest
  obtain ⟨p', taken, stated⟩ := (Option.any_eq_true _ _).mp answered
  have reached : Reached .plain Careful p := Events.run_of_guarded run
  exact ⟨p, p', reached, taken, of_decide_eq_true stated,
    (answers_keep_others .plain p p' 0 _ _ awaited taken).1 reached⟩

/-- What has been entered for `/b` is lost with the answer to the save of `/a`. -/
theorem correction_lost : ¬∀ (js : JsString) (p p' : DashboardPage) (n : Nat) (outcome : Outcome)
    (s : Save), p.saves[n]? = some s → p.step js (.settle n outcome) = some p' →
    Reached js Events.anything p → p.KeepsOthers p' s.slug := by
  intro law
  let events : List Event := saving ++ [.openCorrection "b", .edit "https://c.example"]
  have played : ((events.foldlM (step .plain) initial).any fun p =>
      decide (p.saves[0]? = some ⟨"a", "https://a.example"⟩ ∧
        p.correction = some ⟨"b", .editing, none⟩)) = true := by
    decide +kernel
  obtain ⟨p, run, shown⟩ := (Option.any_eq_true _ _).mp played
  obtain ⟨awaited, here⟩ := of_decide_eq_true shown
  have reached : Reached .plain Events.anything p :=
    Events.run_of_foldlM (fun _ e _ taken => ⟨e, trivial, taken⟩) run
  have taken : p.step .plain (.settle 0 .saved) = some (p.onSettled .plain 0 .saved) :=
    if_pos (List.getElem?_eq_some_iff.mp awaited).1
  obtain ⟨kept, -⟩ := law .plain p _ 0 .saved _ awaited taken reached _ here (by decide)
  cases kept

end Mikrouli.Web.DashboardPage
