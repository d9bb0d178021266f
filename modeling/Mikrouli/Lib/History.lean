import Mikrouli.Lib.Interleaving

/-! Contracts that speak of a thread's own events alone: they need no invariant of the shared
state, and a program meets them along every path of answers its commands may have. -/

namespace Async

variable {S : Signature} {V : Service S} {α β : Type}

/-- The command can have this outcome, for some client in some world. -/
def Service.Possible (V : Service S) (c : S.Cmd) (res : Except S.Err (S.Res c)) : Prop :=
  ∃ i ch w w', V.exec i c ch w = some (res, w')

/-- `Along φ ψ p es`: a thread that has `p` left to run after the events `es` (newest first)
issues each command where `φ` holds of its events, and ends where `ψ` does. -/
def Along (φ : List (Event V) → S.Cmd → Prop) (ψ : List (Event V) → Except S.Err α → Prop) :
    Prog S α → List (Event V) → Prop
  | .done a, es => ψ es (.ok a)
  | .fail e, es => ψ es (.error e)
  | .await c k, es => φ es c ∧ ∀ res, V.Possible c res → Along φ ψ (k res) (.call c res :: es)

section Rules

variable {φ : List (Event V) → S.Cmd → Prop} {ψ χ : List (Event V) → Except S.Err α → Prop}
  {es : List (Event V)}

theorem Along.mono (weaker : ∀ es r, ψ es r → χ es r) {p : Prog S α} (along : Along φ ψ p es) :
    Along φ χ p es := by
  induction p generalizing es with
  | done a => exact weaker _ _ along
  | fail e => exact weaker _ _ along
  | await c k ih => exact ⟨along.1, fun res possible => ih res (along.2 res possible)⟩

theorem Along.bind {ψ : List (Event V) → Except S.Err β → Prop} {p : Prog S α} {f : α → Prog S β}
    (along : Along φ (fun es r => match r with
      | .ok a => Along φ ψ (f a) es
      | .error e => ψ es (.error e)) p es) : Along φ ψ (p >>= f) es := by
  induction p generalizing es with
  | done a => exact along
  | fail e => exact along
  | await c k ih => exact ⟨along.1, fun res possible => ih res (along.2 res possible)⟩

theorem Along.tryCatch {p : Prog S α} {h : S.Err → Prog S α}
    (along : Along φ (fun es r => match r with
      | .ok a => ψ es (.ok a)
      | .error e => Along φ ψ (h e) es) p es) : Along φ ψ (p.tryCatch h) es := by
  induction p generalizing es with
  | done a => exact along
  | fail e => exact along
  | await c k ih => exact ⟨along.1, fun res possible => ih res (along.2 res possible)⟩

theorem Along.map {ψ : List (Event V) → Except S.Err β → Prop} {p : Prog S α} {f : α → β}
    (along : Along φ (fun es r => ψ es (r.map f)) p es) : Along φ ψ (f <$> p) es := by
  apply Along.bind
  refine along.mono fun es r post => ?_
  cases r with
  | ok a => exact post
  | error e => exact post

theorem Along.perform {c : S.Cmd} {ψ : List (Event V) → Except S.Err (S.Res c) → Prop}
    (pre : φ es c) (post : ∀ res, V.Possible c res → ψ (.call c res :: es) res) :
    Along φ ψ (Prog.perform c) es := by
  refine ⟨pre, fun res possible => ?_⟩
  cases res with
  | ok a => exact post _ possible
  | error e => exact post _ possible

/-- What two contracts ask, each on its own, they ask together. -/
theorem Along.both {φ' : List (Event V) → S.Cmd → Prop}
    {ψ' : List (Event V) → Except S.Err α → Prop} {p : Prog S α} (along : Along φ ψ p es)
    (along' : Along φ' ψ' p es) :
    Along (fun es c => φ es c ∧ φ' es c) (fun es r => ψ es r ∧ ψ' es r) p es := by
  induction p generalizing es with
  | done a => exact ⟨along, along'⟩
  | fail e => exact ⟨along, along'⟩
  | await c k ih =>
    exact ⟨⟨along.1, along'.1⟩, fun res possible => ih res (along.2 res possible) (along'.2 res possible)⟩

/-- A program that runs where every command is fine, and stays so. -/
theorem Along.of_stable {K : List (Event V) → Prop} {p : Prog S α}
    (stable : ∀ es c res, K es → K (.call c res :: es)) (fine : ∀ es c, K es → φ es c)
    (post : ∀ es r, ψ es r) (start : K es) : Along φ ψ p es := by
  induction p generalizing es with
  | done a => exact post _ _
  | fail e => exact post _ _
  | await c k ih => exact ⟨fine _ _ start, fun res _ => ih res (stable _ _ _ start)⟩

/-- A program of which nothing is asked. -/
theorem Along.unasked {p : Prog S α} (post : ∀ es r, ψ es r) :
    Along (V := V) (fun _ _ => True) ψ p es := by
  induction p generalizing es with
  | done a => exact post _ _
  | fail e => exact post _ _
  | await c k ih => exact ⟨True.intro, fun res _ => ih res⟩

/-- A program whose every command is fine wherever `K` holds, and keeps `K`. -/
theorem Along.of_only {ok : S.Cmd → Prop} {K : List (Event V) → Prop} {p : Prog S α}
    (only : p.Only ok)
    (step : ∀ es c, ok c → K es → φ es c ∧ ∀ res, V.Possible c res → K (.call c res :: es))
    (post : ∀ es r, K es → ψ es r) (start : K es) : Along φ ψ p es := by
  induction p generalizing es with
  | done a => exact post _ _ start
  | fail e => exact post _ _ start
  | await c k ih =>
    obtain ⟨pre, next⟩ := step es c only.1 start
    exact ⟨pre, fun res possible => ih res (only.2 res) (next res possible)⟩

/-- A thread's events only grow. -/
theorem Along.grows {p : Prog S α} (along : Along φ ψ p es) :
    Along φ (fun es' r => es ⊆ es' ∧ ψ es' r) p es := by
  induction p generalizing es with
  | done a => exact ⟨fun _ member => member, along⟩
  | fail e => exact ⟨fun _ member => member, along⟩
  | await c k ih =>
    refine ⟨along.1, fun res possible => (ih res (along.2 res possible)).mono ?_⟩
    exact fun es' r post => ⟨fun _ member => post.1 (List.mem_cons_of_mem _ member), post.2⟩

/-- What is asked of the ends that throw nothing. -/
def OnSuccess (Q : List (Event V) → α → Prop) (es : List (Event V)) (r : Except S.Err α) : Prop :=
  ∀ a, r = .ok a → Q es a

section OnSuccess

variable {Q : List (Event V) → α → Prop} {R : List (Event V) → β → Prop}

theorem Along.pure {a : α} (post : Q es a) : Along φ (OnSuccess Q) (.done a) es := by
  rintro _ ⟨⟩
  exact post

theorem Along.throw {e : S.Err} : Along φ (OnSuccess Q) (.fail e) es := by
  rintro _ ⟨⟩

theorem Along.next {p : Prog S α} {f : α → Prog S β} (first : Along φ (OnSuccess Q) p es)
    (rest : ∀ es' a, es ⊆ es' → Q es' a → Along φ (OnSuccess R) (f a) es') :
    Along φ (OnSuccess R) (p >>= f) es := by
  apply Along.bind
  refine first.grows.mono fun es' r post => ?_
  cases r with
  | ok a => exact rest es' a post.1 (post.2 a rfl)
  | error e => exact fun _ same => by cases same

/-- A handler may forget what its program has learned. -/
theorem Along.handled {p : Prog S α} {h : S.Err → Prog S α} (first : Along φ (OnSuccess Q) p es)
    (handler : ∀ es' e, es ⊆ es' → Along φ (OnSuccess Q) (h e) es') :
    Along φ (OnSuccess Q) (p.tryCatch h) es := by
  apply Along.tryCatch
  refine first.grows.mono fun es' r post => ?_
  cases r with
  | ok a => exact post.2
  | error e => exact handler es' e post.1

/-- A program whose commands are fine after anything, wherever they were to begin with. -/
theorem Along.only {ok : S.Cmd → Prop} {p : Prog S α} (only : p.Only ok)
    (fine : ∀ es' c, es ⊆ es' → ok c → φ es' c) :
    Along φ (OnSuccess fun _ _ => True) p es := by
  refine Along.of_only only (K := fun es' => es ⊆ es') ?_ ?_ fun _ member => member
  · exact fun es' c holds grown =>
      ⟨fine es' c grown holds, fun res _ _ member => List.mem_cons_of_mem _ (grown member)⟩
  · exact fun _ _ _ _ _ => trivial

/-- A program whose commands are fine after whatever follows what has happened already. -/
theorem Along.permitted {p : Prog S α} (only : p.Only fun c => ∀ es', es ⊆ es' → φ es' c) :
    Along φ (OnSuccess fun _ _ => True) p es :=
  .only only fun es' _ grown fine => fine es' grown

end OnSuccess

end Rules

/-! ### The contract -/

/-- The contract that asks `φ` of every command and `ψ` of every end. -/
def Contract.ofHistory (φ : List (Event V) → S.Cmd → Prop)
    (ψ : V.Req → List (Event V) → Except S.Err V.Ans → Prop) : Contract V :=
  .ofOwn (fun _ => True) (fun i c σ => φ (σ.own i) c) fun i r res σ => ψ r (σ.own i) res

section Contracts

variable {φ : List (Event V) → S.Cmd → Prop}
  {ψ : V.Req → List (Event V) → Except S.Err V.Ans → Prop} {G : Guard V}

theorem Along.safe {i : Nat} {post : List (Event V) → Except S.Err α → Prop} {p : Prog S α}
    {σ : Shared V} (along : Along φ post p (σ.own i)) :
    Safe (.ofHistory φ ψ) G i (fun r σ' => post (σ'.own i) r) p σ := by
  induction p generalizing σ with
  | done a => exact along
  | fail e => exact along
  | await c k ih =>
    intro σ' rely _
    have own : σ'.own i = σ.own i := rely
    refine ⟨?_, fun ch res w returned _ => ⟨trivial, ?_, ?_⟩⟩
    · change φ (σ'.own i) c
      rw [own]
      exact along.1
    · exact fun j other => Shared.called_own_of_ne other σ' c res w
    · apply ih
      rw [Shared.called_own_self, own]
      exact along.2 res ⟨i, ch, σ'.world, w, returned⟩

theorem Contract.ofHistory_sound (along : ∀ r, Along φ (ψ r) (V.prog r) [.start r]) :
    (Contract.ofHistory φ ψ).Sound G := by
  constructor
  · exact fun σ e _ _ => ⟨trivial, fun _ => rfl⟩
  · intro σ n r _ fresh _
    refine ⟨trivial, fun j other => Shared.started_own_of_ne other σ r, ?_⟩
    apply Along.safe
    rw [Shared.started_own_self, fresh]
    exact along r

theorem Contract.ofHistory_holds (w : V.World) :
    (Contract.ofHistory φ ψ).Holds G (initial w) :=
  ⟨trivial, by simp [initial], by simp [initial]⟩

theorem Contract.Holds.history_ok {c : Config V} (holds : (Contract.ofHistory φ ψ).Holds G c)
    {i : Nat} {r : V.Req} {a : V.Ans} (answered : c.Answered i r a) :
    ψ r (c.shared.own i) (.ok a) := by
  obtain ⟨σ, rely, post⟩ := holds.post_ok answered
  have own : c.shared.own i = σ.own i := rely
  rw [own]
  exact post

theorem Contract.Holds.history_error {c : Config V} (holds : (Contract.ofHistory φ ψ).Holds G c)
    {i : Nat} {r : V.Req} {e : S.Err} (failed : c.threads[i]? = some (r, .fail e)) :
    ψ r (c.shared.own i) (.error e) := by
  obtain ⟨σ, rely, post⟩ := holds.post_error failed
  have own : c.shared.own i = σ.own i := rely
  rw [own]
  exact post

end Contracts

/-! ### What was asked -/

/-- A thread was asked what its first event says. -/
theorem asked_iff_started {G : Guard V} {w : V.World} {c : Config V} (reach : Reach G (initial w) c)
    (i : Nat) (r : V.Req) : c.Asked i r ↔ .start r ∈ c.shared.own i := by
  suffices all : (∀ e ∈ c.shared.log, e.thread < c.threads.length) ∧
      ∀ i r, c.Asked i r ↔ .start r ∈ c.shared.own i from all.2 i r
  clear i r
  induction reach with
  | refl => exact ⟨by simp [initial], fun i r => by simp [initial, Config.Asked, Shared.own]⟩
  | tail _ step ih =>
    obtain ⟨logged, asked⟩ := ih
    cases step with
    | @start σ ts r _ =>
      have fresh := own_nil_of_logged (c := ⟨σ, ts⟩) logged
      constructor
      · intro e member
        rw [List.length_append, List.length_singleton]
        rcases List.mem_cons.mp member with rfl | old
        · exact Nat.lt_succ_self _
        · exact Nat.lt_succ_of_lt (logged e old)
      · intro i r'
        by_cases new : i = ts.length
        · subst new
          rw [Shared.started_own_self, fresh]
          simp [Config.Asked, eq_comm]
        · rw [Shared.started_own_of_ne new, ← asked i r']
          by_cases old : i < ts.length
          · simp [Config.Asked, List.getElem?_append_left old]
          · have absent : ts[i]? = none := List.getElem?_eq_none (by omega)
            have beyond : (ts ++ [(r, V.prog r)])[i]? = none := by
              apply List.getElem?_eq_none
              rw [List.length_append, List.length_singleton]
              omega
            simp [Config.Asked, absent, beyond]
    | @call σ ts i r c k ch res w thread _ _ =>
      constructor
      · intro e member
        rw [List.length_set]
        rcases List.mem_cons.mp member with rfl | old
        · exact (List.getElem?_eq_some_iff.mp thread).1
        · exact logged e old
      · intro j r'
        have before := asked j r'
        by_cases same : j = i
        · subst same
          rw [Shared.called_own_self]
          simp only [Config.Asked, thread, Option.some.injEq, Prod.mk.injEq] at before
          simp [Config.Asked, List.getElem?_set_self (List.getElem?_eq_some_iff.mp thread).1,
            ← before]
        · rw [Shared.called_own_of_ne same, ← before]
          simp [Config.Asked, List.getElem?_set_ne (Ne.symm same)]
    | env e _ => exact ⟨logged, asked⟩

end Async
