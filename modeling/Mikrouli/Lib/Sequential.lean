import Mikrouli.Lib.Interleaving

/-! Runs of a service that answers one request after the other: as a history of requests with
the worlds around each, and as interleaved runs in which requests do not overlap. -/

namespace Async

variable {S : Signature} (V : Service S)

/-- An answered request with the worlds it started and ended in. -/
structure Served where
  request : V.Req
  answer : Except S.Err V.Ans
  before : V.World
  after : V.World

/-- What a sequential run may meet: inside a request, between two requests, and which
request may come next after which history. -/
structure Regime extends Setting V.toMachine where
  idle : V.World → V.World → Prop
  next : List (Served V) → V.World → V.Req → Prop

variable {V}

/-- `Session R w₀ h w`: from `w₀`, the requests of `h` (newest first) were answered one after
the other and left the world `w`. -/
inductive Session (R : Regime V) (w₀ : V.World) : List (Served V) → V.World → Prop
  | nil : Session R w₀ [] w₀
  | idle {h : List (Served V)} {w w' : V.World} (earlier : Session R w₀ h w)
      (idled : R.idle w w') : Session R w₀ h w'
  | serve {h : List (Served V)} {w w' : V.World} {r : V.Req} {ans : Except S.Err V.Ans}
      (earlier : Session R w₀ h w) (admitted : R.next h w r)
      (run : Runs V.toMachine R.toSetting h.length (V.prog r) w ans w') :
      Session R w₀ (⟨r, ans, w, w'⟩ :: h) w'

/-- An invariant of histories and worlds holds along every sequential run. -/
theorem Session.invariant {R : Regime V} {w₀ : V.World}
    (Inv : List (Served V) → V.World → Prop) (start : Inv [] w₀)
    (idle : ∀ h w w', Inv h w → R.idle w w' → Inv h w')
    (serve : ∀ h w r, Inv h w → R.next h w r →
      Always V.toMachine R.toSetting h.length (fun ans w' => Inv (⟨r, ans, w, w'⟩ :: h) w')
        (V.prog r) w)
    {h : List (Served V)} {w : V.World} (session : Session R w₀ h w) : Inv h w := by
  induction session with
  | nil => exact start
  | idle _ idled ih => exact idle _ _ _ ih idled
  | serve _ admitted run ih => exact (serve _ _ _ ih admitted).runs run

/-- Every request of a history was served in a state the run had reached before it. -/
theorem Session.served {R : Regime V} {w₀ : V.World} {h : List (Served V)} {w : V.World}
    (session : Session R w₀ h w) {newer older : List (Served V)} {s : Served V}
    (split : h = newer ++ s :: older) :
    Session R w₀ older s.before ∧ R.next older s.before s.request ∧
      Runs V.toMachine R.toSetting older.length (V.prog s.request) s.before s.answer s.after := by
  induction session generalizing newer with
  | nil => simp at split
  | idle _ _ ih => exact ih split
  | @serve h₁ w₁ w₂ r ans earlier admitted run ih =>
    cases newer with
    | nil =>
      rw [List.nil_append, List.cons.injEq] at split
      obtain ⟨rfl, rfl⟩ := split
      exact ⟨earlier, admitted, run⟩
    | cons n newer =>
      rw [List.cons_append, List.cons.injEq] at split
      exact ih split.2

section Scripts

/-- A step of a script: a request with the choices its commands get, or a tick. -/
inductive Line (V : Service S) where
  | serve (r : V.Req) (chs : List V.Choice)
  | tick (e : V.Env)

/-- The choices of the line's commands and its ticks are allowed wherever it stands. -/
def Line.Fair (R : Regime V) : Line V → Prop
  | .serve _ chs => ∀ ch ∈ chs, ∀ c w, R.allow c ch w
  | .tick e => ∀ w, R.idle w (V.tick e w)

/-- Executes a script after a history, as long as a test admits its requests. -/
def recite (ready : List (Served V) → V.World → V.Req → Bool) :
    List (Line V) → List (Served V) → V.World → Option (List (Served V) × V.World)
  | [], h, w => some (h, w)
  | .tick e :: lines, h, w => recite ready lines h (V.tick e w)
  | .serve r chs :: lines, h, w =>
    if ready h w r then
      match replay V.toMachine h.length (V.prog r) chs w with
      | some (ans, w') => recite ready lines (⟨r, ans, w, w'⟩ :: h) w'
      | none => none
    else none

variable {R : Regime V} {ready : List (Served V) → V.World → V.Req → Bool}
  (still : ∀ w, R.drift w w) (sound : ∀ h w r, ready h w r = true → R.next h w r)

include still sound in
theorem session_of_recite {w₀ : V.World} {lines : List (Line V)}
    (fair : ∀ line ∈ lines, line.Fair R) {h h' : List (Served V)} {w w' : V.World}
    (earlier : Session R w₀ h w) (recited : recite ready lines h w = some (h', w')) :
    Session R w₀ h' w' := by
  induction lines generalizing h w with
  | nil => cases recited; exact earlier
  | cons line lines ih =>
    have first := fair line List.mem_cons_self
    have rest := fun l member => fair l (List.mem_cons_of_mem line member)
    cases line with
    | tick e => exact ih rest (earlier.idle (first w)) recited
    | serve r chs =>
      simp only [recite] at recited
      split at recited
      next admitted =>
        split at recited
        next ans w₁ replayed =>
          have run := runs_of_replay still first replayed
          exact ih rest (earlier.serve (sound h w r admitted) run) recited
        · cases recited
      · cases recited

include still sound in
/-- A script whose result passes a test witnesses a session that does. -/
theorem exists_session_of_recite (w₀ : V.World) (lines : List (Line V))
    (fair : ∀ line ∈ lines, line.Fair R) (test : List (Served V) → V.World → Bool)
    (passed : ((recite ready lines [] w₀).any fun x => test x.1 x.2) = true) :
    ∃ h w, Session R w₀ h w ∧ test h w = true := by
  obtain ⟨⟨h, w⟩, recited, holds⟩ := (Option.any_eq_true _ _).mp passed
  exact ⟨h, w, session_of_recite still sound fair .nil recited, holds⟩

end Scripts

section Turns

variable {V : Service S} (G : Guard V) (background : V.Req → Prop)

/-- Every request has ended, but for those that may go on in the background. -/
def Config.Idle (c : Config V) : Prop := ∀ t ∈ c.threads, t.2.Ended ∨ background t.1

instance [DecidablePred background] (c : Config V) : Decidable (c.Idle background) :=
  inferInstanceAs (Decidable (∀ t ∈ c.threads, t.2.Ended ∨ background t.1))

/-- A step of a run whose requests do not overlap: one arrives only when all others have ended,
but for those in the background. -/
def TurnStep (c c' : Config V) : Prop :=
  Step G c c' ∧ (c.threads.length < c'.threads.length → c.Idle background)

abbrev Turns : Config V → Config V → Prop := Relation.ReflTransGen (TurnStep G background)

/-- Thread `i` has not ended and may not go on in the background. -/
def Foreground (c : Config V) (i : Nat) : Prop :=
  ∃ r p, c.threads[i]? = some (r, p) ∧ ¬p.Ended ∧ ¬background r

variable {G background}

theorem Turns.reach {c c' : Config V} (turns : Turns G background c c') : Reach G c c' :=
  turns.lift id fun _ _ turn => turn.1

/-- When a request arrives, no thread is in the foreground. -/
theorem TurnStep.idle {c : Config V} {r : V.Req} (turn : TurnStep G background c (c.arrive r)) (i : Nat) :
    ¬Foreground background c i := by
  rintro ⟨r', p, thread, running, front⟩
  have longer : c.threads.length < (c.arrive r).threads.length := by
    simp [Config.arrive]
  rcases turn.2 longer (r', p) (List.mem_of_getElem? thread) with ended | behind
  · exact running ended
  · exact front behind

/-- At most one thread is in the foreground. -/
theorem Turns.alone {w : V.World} {c : Config V} (turns : Turns G background (initial w) c)
    {i j : Nat} (first : Foreground background c i) (second : Foreground background c j) :
    i = j := by
  induction turns generalizing i j with
  | refl =>
    obtain ⟨r, p, thread, -⟩ := first
    simp [initial] at thread
  | @tail c c' earlier turn ih =>
    obtain ⟨step, idle⟩ := turn
    cases step with
    | @start σ ts r allowed =>
      have newest : ∀ {n}, Foreground background
          (⟨σ.started ts.length r, ts ++ [(r, V.prog r)]⟩ : Config V) n → n = ts.length := by
        rintro n ⟨r', p, thread, running, front⟩
        rw [List.getElem?_append] at thread
        split at thread
        next old => exact absurd ⟨r', p, thread, running, front⟩ (TurnStep.idle ⟨.start r allowed, idle⟩ n)
        next new =>
          have index := (List.getElem?_eq_some_iff.mp thread).1
          rw [List.length_singleton] at index
          omega
      exact (newest first).trans (newest second).symm
    | @call σ ts k r cmd cont ch res w' thread returned allowed =>
      have before : ∀ {n}, Foreground background
          (⟨σ.called k cmd res w', ts.set k (r, cont res)⟩ : Config V) n →
          Foreground background (⟨σ, ts⟩ : Config V) n := by
        rintro n ⟨r', p, thread', running, front⟩
        by_cases same : n = k
        · subst same
          rw [List.getElem?_set_self (List.getElem?_eq_some_iff.mp thread).1] at thread'
          cases thread'
          exact ⟨r, _, thread, id, front⟩
        · rw [List.getElem?_set_ne (Ne.symm same)] at thread'
          exact ⟨r', p, thread', running, front⟩
      exact ih (before first) (before second)
    | env e allowed => exact ih first second

/-- Executes one move, as long as it is a turn. -/
def Config.nextTurn (background : V.Req → Prop) [DecidablePred background]
    (ready : Shared V → Act V → Bool) (c : Config V) : Move V → Option (Config V)
  | .start r => if c.Idle background then c.next ready (.start r) else none
  | m => c.next ready m

/-- Executes a schedule of turns. -/
def Config.playTurns (background : V.Req → Prop) [DecidablePred background]
    (ready : Shared V → Act V → Bool) (c : Config V) : List (Move V) → Option (Config V)
  | [] => some c
  | m :: ms => match c.nextTurn background ready m with
    | some c' => c'.playTurns background ready ms
    | none => none

variable [DecidablePred background] {ready : Shared V → Act V → Bool}
  (sound : ∀ σ a, ready σ a = true → G σ a)

include sound in
theorem turn_of_nextTurn {c c' : Config V} {m : Move V}
    (moved : c.nextTurn background ready m = some c') : TurnStep G background c c' := by
  cases m with
  | start r =>
    simp only [Config.nextTurn] at moved
    split at moved
    next idle => exact ⟨step_of_next sound moved, fun _ => idle⟩
    · cases moved
  | env e =>
    refine ⟨step_of_next sound (m := .env e) moved, fun longer => ?_⟩
    simp only [Config.nextTurn, Config.next] at moved
    split at moved <;> cases moved
    exact absurd longer (Nat.lt_irrefl _)
  | run i ch =>
    refine ⟨step_of_next sound (m := .run i ch) moved, fun longer => ?_⟩
    simp only [Config.nextTurn, Config.next] at moved
    repeat' split at moved
    all_goals cases moved
    rw [List.length_set] at longer
    exact absurd longer (Nat.lt_irrefl _)

include sound in
theorem turns_of_playTurns {c c' : Config V} {ms : List (Move V)}
    (played : c.playTurns background ready ms = some c') : Turns G background c c' := by
  induction ms generalizing c with
  | nil => cases played; exact .refl
  | cons m ms ih =>
    simp only [Config.playTurns] at played
    split at played
    next c₁ moved => exact .head (turn_of_nextTurn sound moved) (ih played)
    · cases played

include sound in
/-- A schedule of turns whose result passes a test witnesses a run that does. -/
theorem exists_turns_of_playTurns (background : V.Req → Prop) [DecidablePred background]
    (c : Config V) (ms : List (Move V)) (test : Config V → Bool)
    (passed : ((c.playTurns background ready ms).any test) = true) :
    ∃ c', Turns G background c c' ∧ test c' = true := by
  obtain ⟨c', played, holds⟩ := (Option.any_eq_true _ _).mp passed
  exact ⟨c', turns_of_playTurns sound played, holds⟩

end Turns

end Async
