/-! Asynchronous programs as trees of awaited commands, and their sequential meaning.

A program is what an `async` function does: it awaits commands one after the
other and ends with a value or an exception. The tree fixes no meaning for a
command, so one program serves both a run on its own (`Runs`, below) and a run
interleaved with others (`Lib.Interleaving`). -/

namespace Async

/-- The commands a program may await, the result of each, and its exceptions. -/
structure Signature where
  Cmd : Type
  Res : Cmd → Type
  Err : Type

/-- `done` returns, `fail` throws, `await` waits for a command's outcome. -/
inductive Prog (S : Signature) (α : Type) where
  | done (a : α)
  | fail (e : S.Err)
  | await (c : S.Cmd) (k : Except S.Err (S.Res c) → Prog S α)

namespace Prog

variable {S : Signature} {α β : Type}

def bind : Prog S α → (α → Prog S β) → Prog S β
  | .done a, f => f a
  | .fail e, _ => .fail e
  | .await c k, f => .await c fun r => (k r).bind f

def tryCatch : Prog S α → (S.Err → Prog S α) → Prog S α
  | .done a, _ => .done a
  | .fail e, h => h e
  | .await c k, h => .await c fun r => (k r).tryCatch h

/-- The program has returned or thrown. -/
def Ended : Prog S α → Prop
  | .done _ => True
  | .fail _ => True
  | .await _ _ => False

instance : (p : Prog S α) → Decidable p.Ended
  | .done _ => isTrue trivial
  | .fail _ => isTrue trivial
  | .await _ _ => isFalse id

instance : Monad (Prog S) where
  pure := .done
  bind := bind

instance : MonadExceptOf S.Err (Prog S) where
  throw := .fail
  tryCatch := tryCatch

/-- Awaits one command; a failed command throws. -/
def perform (c : S.Cmd) : Prog S (S.Res c) :=
  .await c fun
    | .ok a => .done a
    | .error e => .fail e

@[simp] theorem pure_eq (a : α) : (pure a : Prog S α) = .done a := rfl

@[simp] theorem throw_eq (e : S.Err) : (throw e : Prog S α) = .fail e := rfl

@[simp] theorem done_bind (a : α) (f : α → Prog S β) : (Prog.done a >>= f) = f a := rfl

@[simp] theorem fail_bind (e : S.Err) (f : α → Prog S β) :
    ((Prog.fail e : Prog S α) >>= f) = .fail e := rfl

@[simp] theorem await_bind (c : S.Cmd) (k : Except S.Err (S.Res c) → Prog S α)
    (f : α → Prog S β) : (Prog.await c k >>= f) = .await c fun r => k r >>= f := rfl

@[simp] theorem map_eq (f : α → β) (p : Prog S α) : (f <$> p) = p >>= fun a => .done (f a) := rfl

/-- The outcome where every command is answered at once, by a function of a state. -/
def eval {σ : Type} (handle : (c : S.Cmd) → σ → Except S.Err (S.Res c) × σ) :
    Prog S α → σ → Except S.Err α × σ
  | .done a, s => (.ok a, s)
  | .fail e, s => (.error e, s)
  | .await c k, s => (k (handle c s).1).eval handle (handle c s).2

theorem eval_bind {σ : Type} (handle : (c : S.Cmd) → σ → Except S.Err (S.Res c) × σ) (p : Prog S α)
    (f : α → Prog S β) (s : σ) :
    (p >>= f).eval handle s = match p.eval handle s with
      | (.ok a, s') => (f a).eval handle s'
      | (.error e, s') => (.error e, s') := by
  induction p generalizing s with
  | done a => rfl
  | fail e => rfl
  | await c k ih => exact ih _ _

/-! ### Footprints -/

/-- A program all of whose commands satisfy a predicate. -/
def Only (ok : S.Cmd → Prop) : Prog S α → Prop
  | .done _ => True
  | .fail _ => True
  | .await c k => ok c ∧ ∀ r, Only ok (k r)

theorem Only.mono {ok ok' : S.Cmd → Prop} (weaker : ∀ c, ok c → ok' c) {p : Prog S α}
    (only : p.Only ok) : p.Only ok' := by
  induction p with
  | done a => trivial
  | fail e => trivial
  | await c k ih => exact ⟨weaker c only.1, fun r => ih r (only.2 r)⟩

theorem Only.bind {ok : S.Cmd → Prop} {p : Prog S α} {f : α → Prog S β} (first : p.Only ok)
    (next : ∀ a, (f a).Only ok) : (p >>= f).Only ok := by
  induction p with
  | done a => exact next a
  | fail e => trivial
  | await c k ih => exact ⟨first.1, fun r => ih r (first.2 r)⟩

theorem Only.of_bind {ok : S.Cmd → Prop} {p : Prog S α} {f : α → Prog S β}
    (only : (p >>= f).Only ok) : p.Only ok := by
  induction p with
  | done a => trivial
  | fail e => trivial
  | await c k ih => exact ⟨only.1, fun r => ih r (only.2 r)⟩

theorem Only.tryCatch {ok : S.Cmd → Prop} {p : Prog S α} {h : S.Err → Prog S α}
    (first : p.Only ok) (handler : ∀ e, (h e).Only ok) : (p.tryCatch h).Only ok := by
  induction p with
  | done a => trivial
  | fail e => exact handler e
  | await c k ih => exact ⟨first.1, fun r => ih r (first.2 r)⟩

theorem Only.perform {ok : S.Cmd → Prop} {c : S.Cmd} (holds : ok c) :
    (perform c).Only ok := by
  refine ⟨holds, fun r => ?_⟩
  cases r <;> trivial

/-! ### Failures -/

/-- A program that such a failure of a command ends at once, with one of the exceptions `bad`. -/
def FailsOn (on : S.Cmd → S.Err → Prop) (bad : S.Err → Prop) : Prog S α → Prop
  | .done _ => True
  | .fail _ => True
  | .await c k => (∀ e, on c e → ∃ e', bad e' ∧ k (.error e) = .fail e') ∧
      ∀ r, FailsOn on bad (k r)

section FailsOn

variable {on : S.Cmd → S.Err → Prop} {bad worse : S.Err → Prop}

theorem FailsOn.mono (weaker : ∀ e, bad e → worse e) {p : Prog S α} (fails : p.FailsOn on bad) :
    p.FailsOn on worse := by
  induction p with
  | done a => trivial
  | fail e => trivial
  | await c k ih =>
    refine ⟨fun e failed => ?_, fun r => ih r (fails.2 r)⟩
    obtain ⟨e', thrown, ends⟩ := fails.1 e failed
    exact ⟨e', weaker e' thrown, ends⟩

theorem FailsOn.perform {c : S.Cmd} (own : ∀ e, on c e → bad e) : (perform c).FailsOn on bad := by
  refine ⟨fun e failed => ⟨e, own e failed, rfl⟩, fun r => ?_⟩
  cases r <;> trivial

/-- A program that awaits no command of the kind. -/
theorem FailsOn.of_only {ok : S.Cmd → Prop} {p : Prog S α} (only : p.Only ok)
    (other : ∀ c e, ok c → ¬on c e) : p.FailsOn on bad := by
  induction p with
  | done a => trivial
  | fail e => trivial
  | await c k ih =>
    exact ⟨fun e failed => absurd failed (other c e only.1), fun r => ih r (only.2 r)⟩

theorem FailsOn.bind {p : Prog S α} {f : α → Prog S β} (first : p.FailsOn on bad)
    (next : ∀ a, (f a).FailsOn on bad) : (p >>= f).FailsOn on bad := by
  induction p with
  | done a => exact next a
  | fail e => trivial
  | await c k ih =>
    refine ⟨fun e failed => ?_, fun r => ih r (first.2 r)⟩
    obtain ⟨e', thrown, ends⟩ := first.1 e failed
    exact ⟨e', thrown, congrArg (Prog.bind · f) ends⟩

/-- A handler that throws again. -/
theorem FailsOn.tryCatch {p : Prog S α} {h : S.Err → Prog S α} (first : p.FailsOn on bad)
    (thrown : ∀ e, bad e → ∃ e', worse e' ∧ h e = .fail e')
    (handled : ∀ e, (h e).FailsOn on worse) : (p.tryCatch h).FailsOn on worse := by
  induction p with
  | done a => trivial
  | fail e => exact handled e
  | await c k ih =>
    refine ⟨fun e failed => ?_, fun r => ih r (first.2 r)⟩
    obtain ⟨e', bad, ends⟩ := first.1 e failed
    obtain ⟨e'', worse, rethrown⟩ := thrown e' bad
    exact ⟨e'', worse, (congrArg (Prog.tryCatch · h) ends).trans rethrown⟩

end FailsOn

end Prog

/-- A meaning for the commands. `exec i c ch w` is the outcome of `c` issued by
client `i` in world `w`; `ch` resolves what the environment decides (a fault, a
random draw), and `none` says the command cannot complete now or not this way. -/
structure Machine (S : Signature) where
  World : Type
  Choice : Type
  exec : Nat → (c : S.Cmd) → Choice → World → Option (Except S.Err (S.Res c) × World)

/-- What a run on its own may meet: which choices each command may get, and how the world
may have moved since the previous command. -/
structure Setting {S : Signature} (M : Machine S) where
  allow : (c : S.Cmd) → M.Choice → M.World → Prop
  drift : M.World → M.World → Prop

section Sequential

variable {S : Signature} (M : Machine S) (K : Setting M) (i : Nat) {α β : Type}

/-- `Runs M K i p w r w'`: on its own, `p` started in `w` ends with `r` in `w'`. -/
inductive Runs : Prog S α → M.World → Except S.Err α → M.World → Prop
  | done (a : α) (w : M.World) : Runs (.done a) w (.ok a) w
  | fail (e : S.Err) (w : M.World) : Runs (.fail e) w (.error e) w
  | await {c : S.Cmd} {k : Except S.Err (S.Res c) → Prog S α} {ch : M.Choice} {w w₀ : M.World}
      {res : Except S.Err (S.Res c)} {w₁ w₂ : M.World} {r : Except S.Err α}
      (drifted : K.drift w w₀) (allowed : K.allow c ch w₀)
      (returned : M.exec i c ch w₀ = some (res, w₁))
      (rest : Runs (k res) w₁ r w₂) : Runs (.await c k) w r w₂

/-- The weakest precondition for every run of a program to end in `Q`. -/
def Always (Q : Except S.Err α → M.World → Prop) : Prog S α → M.World → Prop
  | .done a, w => Q (.ok a) w
  | .fail e, w => Q (.error e) w
  | .await c k, w => ∀ w₀, K.drift w w₀ → ∀ ch res w', K.allow c ch w₀ →
      M.exec i c ch w₀ = some (res, w') → Always Q (k res) w'

variable {M K i}

@[simp] theorem always_done {Q : Except S.Err α → M.World → Prop} {a : α} {w : M.World} :
    Always M K i Q (.done a) w ↔ Q (.ok a) w := Iff.rfl

@[simp] theorem always_fail {Q : Except S.Err α → M.World → Prop} {e : S.Err} {w : M.World} :
    Always M K i Q (.fail e) w ↔ Q (.error e) w := Iff.rfl

theorem Always.runs {Q : Except S.Err α → M.World → Prop} {p : Prog S α} {w w' : M.World}
    {r : Except S.Err α} (always : Always M K i Q p w) (run : Runs M K i p w r w') :
    Q r w' := by
  induction run with
  | done a w => exact always
  | fail e w => exact always
  | await drifted allowed returned _ ih => exact ih (always _ drifted _ _ _ allowed returned)

theorem Always.mono {Q R : Except S.Err α → M.World → Prop} (weaker : ∀ r w, Q r w → R r w)
    {p : Prog S α} {w : M.World} (always : Always M K i Q p w) : Always M K i R p w := by
  induction p generalizing w with
  | done a => exact weaker _ _ always
  | fail e => exact weaker _ _ always
  | await c k ih =>
    intro w₀ drifted ch res w' allowed returned
    exact ih res (always w₀ drifted ch res w' allowed returned)

theorem Always.bind {Q : Except S.Err β → M.World → Prop} {p : Prog S α} {f : α → Prog S β}
    {w : M.World}
    (always : Always M K i (fun r w' => match r with
      | .ok a => Always M K i Q (f a) w'
      | .error e => Q (.error e) w') p w) : Always M K i Q (p >>= f) w := by
  induction p generalizing w with
  | done a => exact always
  | fail e => exact always
  | await c k ih =>
    intro w₀ drifted ch res w' allowed returned
    exact ih res (always w₀ drifted ch res w' allowed returned)

theorem Always.map {Q : Except S.Err β → M.World → Prop} {p : Prog S α} {f : α → β} {w : M.World}
    (always : Always M K i (fun r w' => Q (r.map f) w') p w) :
    Always M K i Q (f <$> p) w := by
  apply Always.bind
  refine always.mono fun r w' post => ?_
  cases r with
  | ok a => exact post
  | error e => exact post

theorem Always.tryCatch {Q : Except S.Err α → M.World → Prop} {p : Prog S α}
    {h : S.Err → Prog S α} {w : M.World}
    (always : Always M K i (fun r w' => match r with
      | .ok a => Q (.ok a) w'
      | .error e => Always M K i Q (h e) w') p w) :
    Always M K i Q (p.tryCatch h) w := by
  induction p generalizing w with
  | done a => exact always
  | fail e => exact always
  | await c k ih =>
    intro w₀ drifted ch res w' allowed returned
    exact ih res (always w₀ drifted ch res w' allowed returned)

theorem Always.trivial (p : Prog S α) (w : M.World) : Always M K i (fun _ _ => True) p w := by
  induction p generalizing w with
  | done a => exact True.intro
  | fail e => exact True.intro
  | await c k ih => exact fun w₀ _ ch res w' _ _ => ih res w'

theorem Always.and {Q R : Except S.Err α → M.World → Prop} {p : Prog S α} {w : M.World}
    (first : Always M K i Q p w) (second : Always M K i R p w) :
    Always M K i (fun r w' => Q r w' ∧ R r w') p w := by
  induction p generalizing w with
  | done a => exact ⟨first, second⟩
  | fail e => exact ⟨first, second⟩
  | await c k ih =>
    intro w₀ drifted ch res w' allowed returned
    exact ih res (first w₀ drifted ch res w' allowed returned)
      (second w₀ drifted ch res w' allowed returned)

/-- An invariant of the world goes through a sequence of programs. -/
theorem Always.bind_inv {Inv : M.World → Prop} {p : Prog S α} {f : α → Prog S β} {w : M.World}
    (first : Always M K i (fun _ => Inv) p w)
    (rest : ∀ a w, Inv w → Always M K i (fun _ => Inv) (f a) w) :
    Always M K i (fun _ => Inv) (p >>= f) w := by
  apply Always.bind
  refine first.mono fun r w' inv => ?_
  cases r with
  | ok a => exact rest a w' inv
  | error e => exact inv

theorem Always.tryCatch_inv {Inv : M.World → Prop} {p : Prog S α} {h : S.Err → Prog S α}
    {w : M.World} (first : Always M K i (fun _ => Inv) p w)
    (handled : ∀ e w, Inv w → Always M K i (fun _ => Inv) (h e) w) :
    Always M K i (fun _ => Inv) (p.tryCatch h) w := by
  apply Always.tryCatch
  refine first.mono fun r w' inv => ?_
  cases r with
  | ok a => exact inv
  | error e => exact handled e w' inv

theorem Always.perform {c : S.Cmd} {Q : Except S.Err (S.Res c) → M.World → Prop} {w : M.World}
    (always : ∀ w₀, K.drift w w₀ → ∀ ch res w', K.allow c ch w₀ →
      M.exec i c ch w₀ = some (res, w') → Q res w') : Always M K i Q (Prog.perform c) w := by
  intro w₀ drifted ch res w' allowed returned
  cases res with
  | ok a => exact always w₀ drifted ch _ w' allowed returned
  | error e => exact always w₀ drifted ch _ w' allowed returned

/-- What the world's own moves and every command of a program preserve, the program preserves. -/
theorem Always.of_only {ok : S.Cmd → Prop} {Inv : M.World → Prop} {p : Prog S α}
    (only : p.Only ok) (drifts : ∀ w w₀, Inv w → K.drift w w₀ → Inv w₀)
    (step : ∀ c ch w res w', ok c → Inv w → K.allow c ch w → M.exec i c ch w = some (res, w') →
      Inv w') {w : M.World} (inv : Inv w) : Always M K i (fun _ w' => Inv w') p w := by
  induction p generalizing w with
  | done a => exact inv
  | fail e => exact inv
  | await c k ih =>
    intro w₀ drifted ch res w' allowed returned
    exact ih res (only.2 res) (step c ch w₀ res w' only.1 (drifts w w₀ inv drifted) allowed returned)

/-- A program whose commands can always complete has a run. -/
theorem exists_runs {ok : S.Cmd → Prop} {Inv : M.World → Prop} {p : Prog S α} (only : p.Only ok)
    (still : ∀ w, K.drift w w)
    (completes : ∀ c w, ok c → Inv w → ∃ ch res w', K.allow c ch w ∧
      M.exec i c ch w = some (res, w') ∧ Inv w') {w : M.World} (inv : Inv w) :
    ∃ r w', Runs M K i p w r w' := by
  induction p generalizing w with
  | done a => exact ⟨_, w, .done a w⟩
  | fail e => exact ⟨_, w, .fail e w⟩
  | await c k ih =>
    obtain ⟨ch, res, w₁, allowed, returned, after⟩ := completes c w only.1 inv
    obtain ⟨r, w', rest⟩ := ih res (only.2 res) after
    exact ⟨r, w', .await (still w) allowed returned rest⟩

/-- Some run of a program ends in `Q`. -/
def May (M : Machine S) (K : Setting M) (i : Nat) (Q : Except S.Err α → M.World → Prop)
    (p : Prog S α) (w : M.World) : Prop := ∃ r w', Runs M K i p w r w' ∧ Q r w'

theorem May.done {Q : Except S.Err α → M.World → Prop} {a : α} {w : M.World} (post : Q (.ok a) w) :
    May M K i Q (.done a) w := ⟨_, w, .done a w, post⟩

theorem May.await {c : S.Cmd} {k : Except S.Err (S.Res c) → Prog S α} {ch : M.Choice}
    {w w₀ w₁ : M.World} {res : Except S.Err (S.Res c)} {Q : Except S.Err α → M.World → Prop}
    (drifted : K.drift w w₀) (allowed : K.allow c ch w₀)
    (returned : M.exec i c ch w₀ = some (res, w₁)) (rest : May M K i Q (k res) w₁) :
    May M K i Q (.await c k) w := by
  obtain ⟨r, w', run, post⟩ := rest
  exact ⟨r, w', .await drifted allowed returned run, post⟩

end Sequential

section Replay

variable {S : Signature} (M : Machine S) (i : Nat) {α : Type}

/-- Executes a program with a given list of choices, the world standing still in between. -/
def replay : Prog S α → List M.Choice → M.World → Option (Except S.Err α × M.World)
  | .done a, _, w => some (.ok a, w)
  | .fail e, _, w => some (.error e, w)
  | .await _ _, [], _ => none
  | .await c k, ch :: chs, w =>
    match M.exec i c ch w with
    | none => none
    | some (res, w') => replay (k res) chs w'

variable {M i}

theorem runs_of_replay {K : Setting M} (still : ∀ w, K.drift w w) {p : Prog S α}
    {chs : List M.Choice} {w w' : M.World} {r : Except S.Err α}
    (allowed : ∀ ch ∈ chs, ∀ c w, K.allow c ch w)
    (replayed : replay M i p chs w = some (r, w')) : Runs M K i p w r w' := by
  induction p generalizing chs w with
  | done a => cases replayed; exact .done a _
  | fail e => cases replayed; exact .fail e _
  | await c k ih =>
    cases chs with
    | nil => simp [replay] at replayed
    | cons ch chs =>
      simp only [replay] at replayed
      split at replayed
      · cases replayed
      next res w₁ returned =>
        have rest := ih res (fun ch' member => allowed ch' (List.mem_cons_of_mem ch member)) replayed
        exact .await (still w) (allowed ch List.mem_cons_self c w) returned rest

/-- A replay whose end passes a test witnesses a run that does. -/
theorem exists_runs_of_replay {K : Setting M} (still : ∀ w, K.drift w w) {p : Prog S α}
    (chs : List M.Choice) {w : M.World} (allowed : ∀ ch ∈ chs, ∀ c w, K.allow c ch w)
    (test : Except S.Err α × M.World → Bool) (passed : (replay M i p chs w).any test = true) :
    ∃ r w', Runs M K i p w r w' ∧ test (r, w') = true := by
  obtain ⟨⟨r, w'⟩, replayed, holds⟩ := (Option.any_eq_true _ _).mp passed
  exact ⟨r, w', runs_of_replay still allowed replayed, holds⟩

end Replay

end Async
