import Mathlib.Data.Finset.Card
import Mathlib.Logic.Relation
import Mikrouli.Lib.Prog

/-! Interleaved runs of asynchronous programs, and a rely-guarantee rule for them.

A service answers requests, each by running its program in a thread of its own.
Between two awaited commands of one thread any other thread may run, new requests
may arrive and the environment may move. Every step is logged with the world it
left behind, so a property of a run may speak of its past. -/

namespace Async

/-- A machine together with the requests it serves and the environment's moves. -/
structure Service (S : Signature) extends Machine S where
  Req : Type
  Ans : Type
  prog : Req → Prog S Ans
  Env : Type
  tick : Env → World → World

variable {S : Signature} (V : Service S)

inductive Event where
  | start (r : V.Req)
  | call (c : S.Cmd) (res : Except S.Err (S.Res c))

/-- What a thread did, and the world right after it. -/
structure Entry where
  thread : Nat
  event : Event V
  world : V.World

/-- The shared world with the log of the run so far, newest entry first. -/
structure Shared where
  world : V.World
  log : List (Entry V)

structure Config where
  shared : Shared V
  threads : List (V.Req × Prog S V.Ans)

/-- What a step does: a request arrives, a thread's command returns, the environment moves. -/
inductive Act where
  | start (r : V.Req)
  | call (i : Nat) (c : S.Cmd) (ch : V.Choice)
  | env (e : V.Env)

/-- Which steps are considered, judged on the state before the step. -/
abbrev Guard := Shared V → Act V → Prop

variable {V}

/-- Every step is considered. -/
def anyStep : Guard V := fun _ _ => True

namespace Shared

def started (σ : Shared V) (n : Nat) (r : V.Req) : Shared V :=
  ⟨σ.world, ⟨n, .start r, σ.world⟩ :: σ.log⟩

def called (σ : Shared V) (i : Nat) (c : S.Cmd) (res : Except S.Err (S.Res c)) (w : V.World) :
    Shared V :=
  ⟨w, ⟨i, .call c res, w⟩ :: σ.log⟩

def ticked (σ : Shared V) (e : V.Env) : Shared V := ⟨V.tick e σ.world, σ.log⟩

/-- The events of one thread, newest first. -/
def own (σ : Shared V) (i : Nat) : List (Event V) :=
  (σ.log.filter fun e => decide (e.thread = i)).map Entry.event

@[simp] theorem started_world (σ : Shared V) (n : Nat) (r : V.Req) :
    (σ.started n r).world = σ.world := rfl

@[simp] theorem called_world (σ : Shared V) (i : Nat) (c : S.Cmd)
    (res : Except S.Err (S.Res c)) (w : V.World) : (σ.called i c res w).world = w := rfl

@[simp] theorem ticked_world (σ : Shared V) (e : V.Env) :
    (σ.ticked e).world = V.tick e σ.world := rfl

@[simp] theorem ticked_log (σ : Shared V) (e : V.Env) : (σ.ticked e).log = σ.log := rfl

@[simp] theorem ticked_own (σ : Shared V) (e : V.Env) (i : Nat) :
    (σ.ticked e).own i = σ.own i := rfl

theorem started_own (σ : Shared V) (n i : Nat) (r : V.Req) :
    (σ.started n r).own i = if n = i then .start r :: σ.own i else σ.own i := by
  by_cases same : n = i <;> simp [started, own, same]

theorem called_own (σ : Shared V) (i j : Nat) (c : S.Cmd) (res : Except S.Err (S.Res c))
    (w : V.World) :
    (σ.called i c res w).own j = if i = j then .call c res :: σ.own j else σ.own j := by
  by_cases same : i = j <;> simp [called, own, same]

@[simp] theorem started_own_self (σ : Shared V) (n : Nat) (r : V.Req) :
    (σ.started n r).own n = .start r :: σ.own n := by simp [started_own]

@[simp] theorem called_own_self (σ : Shared V) (i : Nat) (c : S.Cmd)
    (res : Except S.Err (S.Res c)) (w : V.World) :
    (σ.called i c res w).own i = .call c res :: σ.own i := by simp [called_own]

theorem started_own_of_ne {n i : Nat} (other : i ≠ n) (σ : Shared V) (r : V.Req) :
    (σ.started n r).own i = σ.own i := by simp [started_own, other.symm]

theorem called_own_of_ne {i j : Nat} (other : j ≠ i) (σ : Shared V) (c : S.Cmd)
    (res : Except S.Err (S.Res c)) (w : V.World) :
    (σ.called i c res w).own j = σ.own j := by simp [called_own, other.symm]

theorem any_called {σ : Shared V} {i j : Nat} {c : S.Cmd} {res : Except S.Err (S.Res c)}
    {w : V.World} {p : Event V → Bool} :
    ((σ.called i c res w).own j).any p = true ↔
      (j = i ∧ p (.call c res) = true) ∨ (σ.own j).any p = true := by
  rw [called_own]
  by_cases same : i = j
  · subst same
    simp
  · simp [same, Ne.symm same]

theorem any_started (σ : Shared V) (n j : Nat) (r : V.Req) {p : Event V → Bool}
    (idle : p (.start r) = false) : ((σ.started n r).own j).any p = (σ.own j).any p := by
  rw [started_own]
  split
  · rw [List.any_cons, idle, Bool.false_or]
  · rfl

theorem mem_own_called {σ : Shared V} {i j : Nat} {c : S.Cmd} {res : Except S.Err (S.Res c)}
    {w : V.World} {e : Event V} :
    e ∈ (σ.called i c res w).own j ↔ (j = i ∧ e = .call c res) ∨ e ∈ σ.own j := by
  rw [called_own]
  by_cases same : i = j
  · subst same
    simp
  · simp [same, Ne.symm same]

theorem mem_own_started {σ : Shared V} {n j : Nat} {r : V.Req} {e : Event V} :
    e ∈ (σ.started n r).own j ↔ (j = n ∧ e = .start r) ∨ e ∈ σ.own j := by
  rw [started_own]
  by_cases same : n = j
  · subst same
    simp
  · simp [same, Ne.symm same]

/-- A request that arrives adds no command. -/
theorem call_mem_own_started {σ : Shared V} {n j : Nat} {r : V.Req} {c : S.Cmd}
    {res : Except S.Err (S.Res c)} :
    .call c res ∈ (σ.started n r).own j ↔ .call c res ∈ σ.own j := by
  rw [mem_own_started]
  exact or_iff_right fun new => by cases new.2

/-- A command adds no request. -/
theorem start_mem_own_called {σ : Shared V} {i j : Nat} {r : V.Req} {c : S.Cmd}
    {res : Except S.Err (S.Res c)} {w : V.World} :
    .start r ∈ (σ.called i c res w).own j ↔ .start r ∈ σ.own j := by
  rw [mem_own_called]
  exact or_iff_right fun new => by cases new.2

theorem mem_log_of_mem_own {σ : Shared V} {i : Nat} {e : Event V} (member : e ∈ σ.own i) :
    ∃ entry ∈ σ.log, entry.thread = i ∧ entry.event = e := by
  obtain ⟨entry, logged, rfl⟩ := List.mem_map.mp member
  rw [List.mem_filter, decide_eq_true_eq] at logged
  exact ⟨entry, logged.1, logged.2, rfl⟩

theorem own_eq_nil_of_not_mem {σ : Shared V} {i : Nat} (absent : i ∉ σ.log.map Entry.thread) :
    σ.own i = [] := by
  rw [own, List.map_eq_nil_iff, List.filter_eq_nil_iff]
  intro e member same
  exact absent (List.mem_map.mpr ⟨e, member, of_decide_eq_true same⟩)

/-- Thread `i` itself did nothing in between. -/
def SameOwn (i : Nat) (σ σ' : Shared V) : Prop := σ'.own i = σ.own i

theorem SameOwn.refl (i : Nat) (σ : Shared V) : SameOwn i σ σ := rfl

theorem SameOwn.trans (i : Nat) (σ₁ σ₂ σ₃ : Shared V) (first : SameOwn i σ₁ σ₂)
    (second : SameOwn i σ₂ σ₃) : SameOwn i σ₁ σ₃ := Eq.trans second first

/-- The threads whose events satisfy a predicate. -/
def census (p : List (Event V) → Bool) (σ : Shared V) : Finset Nat :=
  (σ.log.map Entry.thread).toFinset.filter fun i => p (σ.own i) = true

variable {p : List (Event V) → Bool} (silent : p [] = false)

include silent in
theorem mem_census {σ : Shared V} {i : Nat} : i ∈ σ.census p ↔ p (σ.own i) = true := by
  rw [census, Finset.mem_filter, List.mem_toFinset, and_iff_right_iff_imp]
  intro holds
  by_contra absent
  rw [own_eq_nil_of_not_mem absent, silent] at holds
  cases holds

@[simp] theorem census_ticked (σ : Shared V) (e : V.Env) : (σ.ticked e).census p = σ.census p := rfl

include silent in
theorem census_called_of_true {σ : Shared V} {i : Nat} {c : S.Cmd} {res : Except S.Err (S.Res c)}
    {w : V.World} (holds : p (.call c res :: σ.own i) = true) :
    (σ.called i c res w).census p = insert i (σ.census p) := by
  ext j
  rw [mem_census silent, Finset.mem_insert, mem_census silent, called_own]
  by_cases same : i = j
  · subst same; simp [holds]
  · simp [same, Ne.symm same]

include silent in
theorem census_called_of_false {σ : Shared V} {i : Nat} {c : S.Cmd} {res : Except S.Err (S.Res c)}
    {w : V.World} (fails : p (.call c res :: σ.own i) = false) :
    (σ.called i c res w).census p = (σ.census p).erase i := by
  ext j
  rw [mem_census silent, Finset.mem_erase, mem_census silent, called_own]
  by_cases same : i = j
  · subst same; simp [fails]
  · simp [same, Ne.symm same]

include silent in
theorem card_census_called_le {σ : Shared V} {i : Nat} {c : S.Cmd} {res : Except S.Err (S.Res c)}
    {w : V.World} (kept : p (.call c res :: σ.own i) = true → p (σ.own i) = true) :
    ((σ.called i c res w).census p).card ≤ (σ.census p).card := by
  cases holds : p (.call c res :: σ.own i) with
  | true =>
    rw [census_called_of_true silent holds,
      Finset.insert_eq_of_mem ((mem_census silent).mpr (kept holds))]
  | false =>
    rw [census_called_of_false silent holds]
    exact Finset.card_erase_le

include silent in
theorem card_census_called_le_succ {σ : Shared V} {i : Nat} {c : S.Cmd}
    {res : Except S.Err (S.Res c)} {w : V.World} :
    ((σ.called i c res w).census p).card ≤ (σ.census p).card + 1 := by
  cases holds : p (.call c res :: σ.own i) with
  | true =>
    rw [census_called_of_true silent holds]
    exact Finset.card_insert_le _ _
  | false =>
    rw [census_called_of_false silent holds]
    exact Nat.le_succ_of_le Finset.card_erase_le

include silent in
theorem card_census_called_leave {σ : Shared V} {i : Nat} {c : S.Cmd}
    {res : Except S.Err (S.Res c)} {w : V.World} (held : p (σ.own i) = true)
    (fails : p (.call c res :: σ.own i) = false) :
    ((σ.called i c res w).census p).card + 1 = (σ.census p).card := by
  rw [census_called_of_false silent fails]
  exact Finset.card_erase_add_one ((mem_census silent).mpr held)

include silent in
theorem census_started {σ : Shared V} {n : Nat} {r : V.Req} (fresh : σ.own n = [])
    (idle : p [.start r] = false) : (σ.started n r).census p = σ.census p := by
  ext j
  rw [mem_census silent, mem_census silent, started_own]
  by_cases same : n = j
  · subst same; simp [fresh, idle, silent]
  · simp [same]

end Shared

/-- One step of the service under a guard. -/
inductive Step (G : Guard V) : Config V → Config V → Prop
  | start {σ : Shared V} {ts : List (V.Req × Prog S V.Ans)} (r : V.Req)
      (allowed : G σ (.start r)) :
      Step G ⟨σ, ts⟩ ⟨σ.started ts.length r, ts ++ [(r, V.prog r)]⟩
  | call {σ : Shared V} {ts : List (V.Req × Prog S V.Ans)} {i : Nat} {r : V.Req} {c : S.Cmd}
      {k : Except S.Err (S.Res c) → Prog S V.Ans} {ch : V.Choice}
      {res : Except S.Err (S.Res c)} {w : V.World}
      (thread : ts[i]? = some (r, .await c k)) (returned : V.exec i c ch σ.world = some (res, w))
      (allowed : G σ (.call i c ch)) :
      Step G ⟨σ, ts⟩ ⟨σ.called i c res w, ts.set i (r, k res)⟩
  | env {σ : Shared V} {ts : List (V.Req × Prog S V.Ans)} (e : V.Env)
      (allowed : G σ (.env e)) : Step G ⟨σ, ts⟩ ⟨σ.ticked e, ts⟩

/-- A run of any length. -/
abbrev Reach (G : Guard V) : Config V → Config V → Prop := Relation.ReflTransGen (Step G)

/-- The start of a run: nothing logged, no request yet. -/
def initial (w : V.World) : Config V := ⟨⟨w, []⟩, []⟩

/-- The configuration in which a request has just arrived. -/
def Config.arrive (c : Config V) (r : V.Req) : Config V :=
  ⟨c.shared.started c.threads.length r, c.threads ++ [(r, V.prog r)]⟩

/-- Thread `i` has answered `r` with `a`. -/
def Config.Answered (c : Config V) (i : Nat) (r : V.Req) (a : V.Ans) : Prop :=
  c.threads[i]? = some (r, .done a)

/-- Thread `i` was asked `r`. -/
def Config.Asked (c : Config V) (i : Nat) (r : V.Req) : Prop := ∃ p, c.threads[i]? = some (r, p)

/-- Thread `i` was asked `r` and threw. -/
def Config.Failed (c : Config V) (i : Nat) (r : V.Req) : Prop :=
  ∃ e, c.threads[i]? = some (r, .fail e)

/-- Thread `i` is waiting for a command. -/
def Config.Awaits (c : Config V) (i : Nat) (cmd : S.Cmd) : Prop :=
  ∃ r k, c.threads[i]? = some (r, .await cmd k)

/-- Every request has been answered. -/
def Config.Quiescent (c : Config V) : Prop := ∀ t ∈ c.threads, t.2.Ended

instance [DecidableEq V.Req] (c : Config V) (i : Nat) (r : V.Req) : Decidable (c.Asked i r) :=
  decidable_of_iff (c.threads[i]?.map Prod.fst = some r) <| by
    rw [Option.map_eq_some_iff, Config.Asked]
    constructor
    · rintro ⟨⟨q, p⟩, thread, rfl⟩
      exact ⟨p, thread⟩
    · rintro ⟨p, thread⟩
      exact ⟨(r, p), thread, rfl⟩

instance (c : Config V) : Decidable c.Quiescent :=
  inferInstanceAs (Decidable (∀ t ∈ c.threads, t.2.Ended))

theorem Config.Asked.unique {c : Config V} {i : Nat} {r r' : V.Req} (asked : c.Asked i r)
    (asked' : c.Asked i r') : r = r' := by
  obtain ⟨p, thread⟩ := asked
  obtain ⟨p', thread'⟩ := asked'
  rw [thread] at thread'
  exact congrArg Prod.fst (Option.some.inj thread')

theorem Config.exists_awaits {c : Config V} (running : ¬c.Quiescent) : ∃ i cmd, c.Awaits i cmd := by
  simp only [Config.Quiescent, not_forall] at running
  obtain ⟨⟨r, p⟩, member, unended⟩ := running
  obtain ⟨i, thread⟩ := List.mem_iff_getElem?.mp member
  cases p with
  | await cmd k => exact ⟨i, cmd, r, k, thread⟩
  | done a => exact absurd trivial unended
  | fail e => exact absurd trivial unended

theorem Step.weaken {G H : Guard V} (weaker : ∀ σ a, G σ a → H σ a) {c c' : Config V}
    (step : Step G c c') : Step H c c' := by
  cases step with
  | start r allowed => exact .start r (weaker _ _ allowed)
  | call thread returned allowed => exact .call thread returned (weaker _ _ allowed)
  | env e allowed => exact .env e (weaker _ _ allowed)

theorem Reach.weaken {G H : Guard V} (weaker : ∀ σ a, G σ a → H σ a) {c c' : Config V}
    (reach : Reach G c c') : Reach H c c' :=
  reach.lift id fun _ _ => Step.weaken weaker

/-- Every command in the log was executed in a state that allowed it, and left the world it was
logged with. -/
theorem call_of_logged {G : Guard V} {w₀ : V.World} {c : Config V} (reach : Reach G (initial w₀) c) :
    ∀ e ∈ c.shared.log, ∀ cmd res, e.event = .call cmd res →
      ∃ ch σ, V.exec e.thread cmd ch σ.world = some (res, e.world) ∧ G σ (.call e.thread cmd ch) := by
  induction reach with
  | refl => simp [initial]
  | tail _ step ih =>
    intro e logged cmd res event
    cases step with
    | start r _ =>
      rcases List.mem_cons.mp logged with rfl | old
      · cases event
      · exact ih e old cmd res event
    | @call σ _ _ _ _ _ ch _ _ _ returned allowed =>
      rcases List.mem_cons.mp logged with rfl | old
      · cases event
        exact ⟨ch, σ, returned, allowed⟩
      · exact ih e old cmd res event
    | env _ _ => exact ih e logged cmd res event

theorem exec_of_logged {G : Guard V} {w₀ : V.World} {c : Config V} (reach : Reach G (initial w₀) c) :
    ∀ e ∈ c.shared.log, ∀ cmd res, e.event = .call cmd res →
      ∃ ch w, V.exec e.thread cmd ch w = some (res, e.world) := by
  intro e logged cmd res event
  obtain ⟨ch, σ, returned, -⟩ := call_of_logged reach e logged cmd res event
  exact ⟨ch, σ.world, returned⟩

section Contracts

variable (V) (G : Guard V)

/-- What a proof about interleaved threads fixes: an invariant of the shared state, what
thread `i` relies on while others run, what holds when it issues a command and what holds
when it ends. -/
structure Contract where
  Inv : Shared V → Prop
  Rely : Nat → Shared V → Shared V → Prop
  Pre : Nat → S.Cmd → Shared V → Prop
  Post : Nat → V.Req → Except S.Err V.Ans → Shared V → Prop
  rely_refl : ∀ i σ, Rely i σ σ
  rely_trans : ∀ i σ₁ σ₂ σ₃, Rely i σ₁ σ₂ → Rely i σ₂ σ₃ → Rely i σ₁ σ₃

variable {V G} {α β : Type} (C : Contract V)

/-- The contract of threads that rely on nothing but what they did themselves. -/
def Contract.ofOwn (Inv : Shared V → Prop) (Pre : Nat → S.Cmd → Shared V → Prop)
    (Post : Nat → V.Req → Except S.Err V.Ans → Shared V → Prop) : Contract V where
  Inv := Inv
  Rely := Shared.SameOwn
  Pre := Pre
  Post := Post
  rely_refl := Shared.SameOwn.refl
  rely_trans := Shared.SameOwn.trans

/-- `Safe C G i Q p σ`: thread `i`, about to run `p`, last looked at the shared state in
`σ`. Whatever the others have done since within `Rely`, each command of `p` keeps the
invariant and the others' relies, and `p` ends in `Q`. -/
def Safe (G : Guard V) (i : Nat) (Q : Except S.Err α → Shared V → Prop) :
    Prog S α → Shared V → Prop
  | .done a, σ => Q (.ok a) σ
  | .fail e, σ => Q (.error e) σ
  | .await c k, σ => ∀ σ', C.Rely i σ σ' → C.Inv σ' → C.Pre i c σ' ∧
      ∀ ch res w, V.exec i c ch σ'.world = some (res, w) → G σ' (.call i c ch) →
        C.Inv (σ'.called i c res w) ∧ (∀ j, j ≠ i → C.Rely j σ' (σ'.called i c res w)) ∧
        Safe G i Q (k res) (σ'.called i c res w)

variable {C} {i : Nat}

theorem Safe.mono {Q R : Except S.Err α → Shared V → Prop} (weaker : ∀ r σ, Q r σ → R r σ)
    {p : Prog S α} {σ : Shared V} (safe : Safe C G i Q p σ) : Safe C G i R p σ := by
  induction p generalizing σ with
  | done a => exact weaker _ _ safe
  | fail e => exact weaker _ _ safe
  | await c k ih =>
    intro σ' rely inv
    obtain ⟨pre, steps⟩ := safe σ' rely inv
    refine ⟨pre, fun ch res w returned allowed => ?_⟩
    obtain ⟨kept, others, rest⟩ := steps ch res w returned allowed
    exact ⟨kept, others, ih res rest⟩

theorem Safe.bind {Q : Except S.Err β → Shared V → Prop} {p : Prog S α} {f : α → Prog S β}
    {σ : Shared V}
    (safe : Safe C G i (fun r σ' => match r with
      | .ok a => Safe C G i Q (f a) σ'
      | .error e => Q (.error e) σ') p σ) : Safe C G i Q (p >>= f) σ := by
  induction p generalizing σ with
  | done a => exact safe
  | fail e => exact safe
  | await c k ih =>
    intro σ' rely inv
    obtain ⟨pre, steps⟩ := safe σ' rely inv
    refine ⟨pre, fun ch res w returned allowed => ?_⟩
    obtain ⟨kept, others, rest⟩ := steps ch res w returned allowed
    exact ⟨kept, others, ih res rest⟩

theorem Safe.tryCatch {Q : Except S.Err α → Shared V → Prop} {p : Prog S α}
    {h : S.Err → Prog S α} {σ : Shared V}
    (safe : Safe C G i (fun r σ' => match r with
      | .ok a => Q (.ok a) σ'
      | .error e => Safe C G i Q (h e) σ') p σ) : Safe C G i Q (p.tryCatch h) σ := by
  induction p generalizing σ with
  | done a => exact safe
  | fail e => exact safe
  | await c k ih =>
    intro σ' rely inv
    obtain ⟨pre, steps⟩ := safe σ' rely inv
    refine ⟨pre, fun ch res w returned allowed => ?_⟩
    obtain ⟨kept, others, rest⟩ := steps ch res w returned allowed
    exact ⟨kept, others, ih res rest⟩

/-- A program is safe whose commands each are wherever `K` holds, which the thread can rely on. -/
theorem Safe.of_only {ok : S.Cmd → Prop} {K : Shared V → Prop}
    {Q : Except S.Err α → Shared V → Prop} {p : Prog S α} (only : p.Only ok)
    (stable : ∀ σ σ', C.Rely i σ σ' → K σ → K σ')
    (step : ∀ c σ, ok c → C.Inv σ → K σ → C.Pre i c σ ∧
      ∀ ch res w, V.exec i c ch σ.world = some (res, w) → G σ (.call i c ch) →
        C.Inv (σ.called i c res w) ∧ (∀ j, j ≠ i → C.Rely j σ (σ.called i c res w)) ∧
        K (σ.called i c res w))
    (post : ∀ r σ, K σ → Q r σ) {σ : Shared V} (start : K σ) : Safe C G i Q p σ := by
  induction p generalizing σ with
  | done a => exact post _ _ start
  | fail e => exact post _ _ start
  | await c k ih =>
    intro σ' rely inv
    obtain ⟨pre, steps⟩ := step c σ' only.1 inv (stable σ σ' rely start)
    refine ⟨pre, fun ch res w returned allowed => ?_⟩
    obtain ⟨kept, others, next⟩ := steps ch res w returned allowed
    exact ⟨kept, others, ih res (only.2 res) next⟩

theorem Safe.perform {c : S.Cmd} {Q : Except S.Err (S.Res c) → Shared V → Prop} {σ : Shared V}
    (step : ∀ σ', C.Rely i σ σ' → C.Inv σ' → C.Pre i c σ' ∧
      ∀ ch res w, V.exec i c ch σ'.world = some (res, w) → G σ' (.call i c ch) →
        C.Inv (σ'.called i c res w) ∧ (∀ j, j ≠ i → C.Rely j σ' (σ'.called i c res w)) ∧
        Q res (σ'.called i c res w)) :
    Safe C G i Q (Prog.perform c) σ := by
  intro σ' rely inv
  obtain ⟨pre, steps⟩ := step σ' rely inv
  refine ⟨pre, fun ch res w returned allowed => ?_⟩
  obtain ⟨kept, others, post⟩ := steps ch res w returned allowed
  refine ⟨kept, others, ?_⟩
  cases res with
  | ok a => exact post
  | error e => exact post

theorem Safe.map {Q : Except S.Err β → Shared V → Prop} {p : Prog S α} {f : α → β} {σ : Shared V}
    (safe : Safe C G i (fun r σ' => Q (r.map f) σ') p σ) : Safe C G i Q (f <$> p) σ := by
  apply Safe.bind
  refine safe.mono fun r σ' post => ?_
  cases r with
  | ok a => exact post
  | error e => exact post

variable (C G)

/-- The proof obligations of a contract: the environment and arriving requests keep the
invariant and the relies, and every request's program is safe. -/
structure Contract.Sound : Prop where
  env : ∀ σ e, C.Inv σ → G σ (.env e) → C.Inv (σ.ticked e) ∧ ∀ j, C.Rely j σ (σ.ticked e)
  start : ∀ σ n r, C.Inv σ → σ.own n = [] → G σ (.start r) →
    C.Inv (σ.started n r) ∧ (∀ j, j ≠ n → C.Rely j σ (σ.started n r)) ∧
    Safe C G n (C.Post n r) (V.prog r) (σ.started n r)

/-- What the rule carries along a run. -/
structure Contract.Holds (c : Config V) : Prop where
  inv : C.Inv c.shared
  logged : ∀ e ∈ c.shared.log, e.thread < c.threads.length
  safe : ∀ i r p, c.threads[i]? = some (r, p) →
    ∃ σ, C.Rely i σ c.shared ∧ Safe C G i (C.Post i r) p σ

variable {C G}

theorem own_nil_of_logged {c : Config V}
    (logged : ∀ e ∈ c.shared.log, e.thread < c.threads.length) :
    c.shared.own c.threads.length = [] := by
  simp only [Shared.own, List.map_eq_nil_iff, List.filter_eq_nil_iff, decide_eq_true_eq]
  intro e member same
  have below := logged e member
  omega

theorem Contract.Holds.step (sound : C.Sound G) {c c' : Config V} (holds : C.Holds G c)
    (step : Step G c c') : C.Holds G c' := by
  cases step with
  | @start σ ts r allowed =>
    obtain ⟨kept, others, safe⟩ :=
      sound.start σ ts.length r holds.inv (own_nil_of_logged holds.logged) allowed
    refine ⟨kept, ?_, ?_⟩
    · intro e member
      simp only [Shared.started, List.mem_cons, List.length_append, List.length_singleton] at *
      rcases member with rfl | old
      · exact Nat.lt_succ_self _
      · exact Nat.lt_succ_of_lt (holds.logged e old)
    · intro i r' p thread
      rw [List.getElem?_append] at thread
      split at thread
      next old =>
        obtain ⟨σ, rely, earlier⟩ := holds.safe i r' p thread
        exact ⟨σ, C.rely_trans i _ _ _ rely (others i (Nat.ne_of_lt old)), earlier⟩
      next new =>
        have index : i = ts.length := by
          have bound := (List.getElem?_eq_some_iff.mp thread).1
          simp only [List.length_singleton] at bound
          omega
        subst index
        simp only [Nat.sub_self, List.getElem?_cons_zero, Option.some.injEq, Prod.mk.injEq] at thread
        obtain ⟨rfl, rfl⟩ := thread
        exact ⟨_, C.rely_refl _ _, safe⟩
  | @call σ ts i r cmd k ch res w thread returned allowed =>
    obtain ⟨σ₀, rely, earlier⟩ := holds.safe i r _ thread
    obtain ⟨kept, others, safe⟩ := (earlier _ rely holds.inv).2 ch res w returned allowed
    refine ⟨kept, ?_, ?_⟩
    · intro e member
      simp only [Shared.called, List.mem_cons, List.length_set] at *
      rcases member with rfl | old
      · exact (List.getElem?_eq_some_iff.mp thread).1
      · exact holds.logged e old
    · intro j r' p thread'
      by_cases same : j = i
      · subst same
        rw [List.getElem?_set_self (List.getElem?_eq_some_iff.mp thread).1] at thread'
        simp only [Option.some.injEq, Prod.mk.injEq] at thread'
        obtain ⟨rfl, rfl⟩ := thread'
        exact ⟨_, C.rely_refl _ _, safe⟩
      · rw [List.getElem?_set_ne (Ne.symm same)] at thread'
        obtain ⟨σ', rely', earlier'⟩ := holds.safe j r' p thread'
        exact ⟨σ', C.rely_trans j _ _ _ rely' (others j same), earlier'⟩
  | env e allowed =>
    obtain ⟨kept, others⟩ := sound.env _ e holds.inv allowed
    refine ⟨kept, holds.logged, ?_⟩
    intro i r p thread
    obtain ⟨σ, rely, earlier⟩ := holds.safe i r p thread
    exact ⟨σ, C.rely_trans i _ _ _ rely (others i), earlier⟩

/-- The rely-guarantee rule: a sound contract holds along every run. -/
theorem Contract.Sound.holds (sound : C.Sound G) {w : V.World} (init : C.Inv ⟨w, []⟩)
    {c : Config V} (reach : Reach G (initial w) c) : C.Holds G c := by
  induction reach with
  | refl => exact ⟨init, by simp [initial], by simp [initial]⟩
  | tail _ step ih => exact ih.step sound step

theorem Contract.Holds.reach (sound : C.Sound G) {c c' : Config V} (holds : C.Holds G c)
    (reach : Reach G c c') : C.Holds G c' := by
  induction reach with
  | refl => exact holds
  | tail _ step ih => exact ih.step sound step

/-- A step as the contract sees it: a command is issued where its precondition holds. -/
inductive Contract.Acts (C : Contract V) (G : Guard V) : Shared V → Shared V → Prop
  | start {σ : Shared V} (n : Nat) (r : V.Req) (fresh : σ.own n = [])
      (allowed : G σ (.start r)) : Acts C G σ (σ.started n r)
  | call {σ : Shared V} {i : Nat} {c : S.Cmd} {ch : V.Choice} {res : Except S.Err (S.Res c)}
      {w : V.World} (pre : C.Pre i c σ) (returned : V.exec i c ch σ.world = some (res, w))
      (allowed : G σ (.call i c ch)) : Acts C G σ (σ.called i c res w)
  | env {σ : Shared V} (e : V.Env) (allowed : G σ (.env e)) : Acts C G σ (σ.ticked e)

/-- A waiting thread meets the precondition of its command. -/
theorem Contract.Holds.pre {c : Config V} (holds : C.Holds G c) {i : Nat} {cmd : S.Cmd}
    (awaits : c.Awaits i cmd) : C.Pre i cmd c.shared := by
  obtain ⟨r, k, thread⟩ := awaits
  obtain ⟨σ, rely, safe⟩ := holds.safe i r _ thread
  exact (safe _ rely holds.inv).1

theorem Contract.Holds.acts {c c' : Config V} (holds : C.Holds G c) (step : Step G c c') :
    C.Acts G c.shared c'.shared := by
  cases step with
  | start r allowed => exact .start _ r (own_nil_of_logged holds.logged) allowed
  | call thread returned allowed => exact .call (holds.pre ⟨_, _, thread⟩) returned allowed
  | env e allowed => exact .env e allowed

/-- What every step preserves that meets the contract holds along every run. -/
theorem Contract.Holds.invariant (sound : C.Sound G) {c c' : Config V} (holds : C.Holds G c)
    {J : Shared V → Prop} (keeps : ∀ σ σ', C.Inv σ → C.Acts G σ σ' → J σ → J σ')
    (start : J c.shared) (reach : Reach G c c') : J c'.shared := by
  induction reach with
  | refl => exact start
  | tail earlier step ih =>
    have now := holds.reach sound earlier
    exact keeps _ _ now.inv (now.acts step) ih

theorem Contract.Holds.post_ok {c : Config V} (holds : C.Holds G c) {i : Nat} {r : V.Req}
    {a : V.Ans} (answered : c.Answered i r a) :
    ∃ σ, C.Rely i σ c.shared ∧ C.Post i r (.ok a) σ :=
  holds.safe i r _ answered

theorem Contract.Holds.post_error {c : Config V} (holds : C.Holds G c) {i : Nat} {r : V.Req}
    {e : S.Err} (thread : c.threads[i]? = some (r, .fail e)) :
    ∃ σ, C.Rely i σ c.shared ∧ C.Post i r (.error e) σ :=
  holds.safe i r _ thread

end Contracts

section Termination

variable {α : Type}

/-- A program and what is left of it after its first command. -/
inductive Prog.Rest : Prog S α → Prog S α → Prop
  | await (c : S.Cmd) (k : Except S.Err (S.Res c) → Prog S α) (res : Except S.Err (S.Res c)) :
      Rest (k res) (.await c k)

theorem Prog.acc_rest (p : Prog S α) : Acc Prog.Rest p := by
  induction p with
  | done a => exact ⟨_, fun q rest => by cases rest⟩
  | fail e => exact ⟨_, fun q rest => by cases rest⟩
  | await c k ih => exact ⟨_, fun q rest => by cases rest; exact ih _⟩

/-- One of the threads ran its next command. -/
def Advances (ts' ts : List (V.Req × Prog S V.Ans)) : Prop :=
  ∃ i r p q, ts[i]? = some (r, p) ∧ Prog.Rest q p ∧ ts' = ts.set i (r, q)

theorem advances_cons {t : V.Req × Prog S V.Ans} {ts ts' : List (V.Req × Prog S V.Ans)}
    (advances : Advances ts' (t :: ts)) :
    (∃ q, Prog.Rest q t.2 ∧ ts' = (t.1, q) :: ts) ∨ ∃ ts₁, Advances ts₁ ts ∧ ts' = t :: ts₁ := by
  obtain ⟨i, r, p, q, thread, rest, rfl⟩ := advances
  cases i with
  | zero =>
    cases thread
    exact .inl ⟨q, rest, rfl⟩
  | succ i => exact .inr ⟨ts.set i (r, q), ⟨i, r, p, q, thread, rest, rfl⟩, rfl⟩

/-- Without new requests the threads come to an end, whichever of them runs next. -/
theorem acc_advances (ts : List (V.Req × Prog S V.Ans)) : Acc (Advances (V := V)) ts := by
  induction ts with
  | nil =>
    refine ⟨_, fun ts' advances => ?_⟩
    obtain ⟨i, r, p, q, thread, -⟩ := advances
    cases thread
  | cons t ts ih =>
    obtain ⟨r, p⟩ := t
    -- both the first thread and the others get shorter
    induction ih generalizing p with
    | intro ts _ others =>
      induction Prog.acc_rest p with
      | intro p _ first =>
        refine ⟨_, fun ts' advances => ?_⟩
        rcases advances_cons advances with ⟨q, rest, rfl⟩ | ⟨ts₁, later, rfl⟩
        · exact first q rest
        · exact others ts₁ later p

/-- Where some thread can always run its next command, every request can be answered. -/
theorem exists_quiescent {G : Guard V} {I : Config V → Prop}
    (kept : ∀ c c', I c → Step G c c' → I c')
    (live : ∀ c, I c → ¬c.Quiescent → ∃ i cmd ch res w,
      c.Awaits i cmd ∧ V.exec i cmd ch c.shared.world = some (res, w) ∧
        G c.shared (.call i cmd ch))
    {c : Config V} (start : I c) : ∃ c', Reach G c c' ∧ c'.Quiescent := by
  obtain ⟨σ, ts⟩ := c
  induction acc_advances ts generalizing σ with
  | intro ts _ ih =>
    by_cases quiescent : (⟨σ, ts⟩ : Config V).Quiescent
    · exact ⟨_, .refl, quiescent⟩
    · obtain ⟨i, cmd, ch, res, w, ⟨r, k, thread⟩, returned, allowed⟩ := live _ start quiescent
      have step := Step.call thread returned allowed
      obtain ⟨c', reach, quiescent'⟩ := ih _ ⟨i, r, _, _, thread, .await cmd k res, rfl⟩ _
        (kept _ _ start step)
      exact ⟨c', .head step reach, quiescent'⟩

end Termination

section Schedules

/-- A move of a concrete schedule: like `Act`, but the command is the thread's own. -/
inductive Move (V : Service S) where
  | start (r : V.Req)
  | run (i : Nat) (ch : V.Choice)
  | env (e : V.Env)

/-- Executes one move, as long as a test allows the step it is. -/
def Config.next (ready : Shared V → Act V → Bool) (c : Config V) : Move V → Option (Config V)
  | .start r =>
    if ready c.shared (.start r) then
      some ⟨c.shared.started c.threads.length r, c.threads ++ [(r, V.prog r)]⟩
    else none
  | .env e => if ready c.shared (.env e) then some ⟨c.shared.ticked e, c.threads⟩ else none
  | .run i ch =>
    match c.threads[i]? with
    | some (r, .await cmd k) =>
      if ready c.shared (.call i cmd ch) then
        match V.exec i cmd ch c.shared.world with
        | some (res, w) => some ⟨c.shared.called i cmd res w, c.threads.set i (r, k res)⟩
        | none => none
      else none
    | _ => none

/-- Executes a schedule. -/
def Config.play (ready : Shared V → Act V → Bool) (c : Config V) : List (Move V) → Option (Config V)
  | [] => some c
  | m :: ms => match c.next ready m with
    | some c' => c'.play ready ms
    | none => none

variable {G : Guard V} {ready : Shared V → Act V → Bool}
  (sound : ∀ σ a, ready σ a = true → G σ a)

include sound in
theorem step_of_next {c c' : Config V} {m : Move V} (moved : c.next ready m = some c') :
    Step G c c' := by
  cases m with
  | start r =>
    simp only [Config.next] at moved
    split at moved <;> cases moved
    next allowed => exact .start r (sound _ _ allowed)
  | env e =>
    simp only [Config.next] at moved
    split at moved <;> cases moved
    next allowed => exact .env e (sound _ _ allowed)
  | run i ch =>
    simp only [Config.next] at moved
    split at moved
    next r cmd k thread =>
      split at moved
      next allowed =>
        split at moved
        next res w returned => cases moved; exact .call thread returned (sound _ _ allowed)
        · cases moved
      · cases moved
    · cases moved

include sound in
theorem reach_of_play {c c' : Config V} {ms : List (Move V)} (played : c.play ready ms = some c') :
    Reach G c c' := by
  induction ms generalizing c with
  | nil => cases played; exact .refl
  | cons m ms ih =>
    simp only [Config.play] at played
    split at played
    next c₁ moved => exact .head (step_of_next sound moved) (ih played)
    · cases played

/-- What thread `i` was asked and has answered, if it has. -/
def Config.answer? (c : Config V) (i : Nat) : Option (V.Req × V.Ans) :=
  match c.threads[i]? with
  | some (r, .done a) => some (r, a)
  | _ => none

theorem answered_of_answer? {c : Config V} {i : Nat} {r : V.Req} {a : V.Ans}
    (answer : c.answer? i = some (r, a)) : c.Answered i r a := by
  unfold Config.answer? at answer
  split at answer
  next thread => cases answer; exact thread
  · cases answer

include sound in
/-- A schedule whose result passes a test witnesses a run that does. -/
theorem exists_reach_of_play (c : Config V) (ms : List (Move V)) (test : Config V → Bool)
    (passed : ((c.play ready ms).any test) = true) : ∃ c', Reach G c c' ∧ test c' = true := by
  obtain ⟨c', played, holds⟩ := (Option.any_eq_true _ _).mp passed
  exact ⟨c', reach_of_play sound played, holds⟩

include sound in
/-- A schedule and the step that follows it, whose two ends pass a test. -/
theorem exists_step_of_play (c : Config V) (ms : List (Move V)) (m : Move V)
    (test : Config V → Config V → Bool)
    (passed : ((c.play ready ms).any fun c₁ => (c₁.next ready m).any (test c₁)) = true) :
    ∃ c₁ c₂, Reach G c c₁ ∧ Step G c₁ c₂ ∧ test c₁ c₂ = true := by
  obtain ⟨c₁, reach, stepped⟩ := exists_reach_of_play sound c ms _ passed
  obtain ⟨c₂, moved, holds⟩ := (Option.any_eq_true _ _).mp stepped
  exact ⟨c₁, c₂, reach, step_of_next sound moved, holds⟩

/-- Two tests together. -/
def bothReady (ready ready' : Shared V → Act V → Bool) : Shared V → Act V → Bool :=
  fun σ a => ready σ a && ready' σ a

theorem and_of_bothReady {G' : Guard V} {ready' : Shared V → Act V → Bool}
    (sound : ∀ σ a, ready σ a = true → G σ a) (sound' : ∀ σ a, ready' σ a = true → G' σ a)
    (σ : Shared V) (a : Act V) (test : bothReady ready ready' σ a = true) : G σ a ∧ G' σ a := by
  rw [bothReady, Bool.and_eq_true] at test
  exact ⟨sound σ a test.1, sound' σ a test.2⟩

/-- The test that lets every step through. -/
def anyReady : Shared V → Act V → Bool := fun _ _ => true

theorem anyStep_of_anyReady (σ : Shared V) (a : Act V) (_ : anyReady σ a = true) :
    anyStep σ a := trivial

end Schedules

end Async
