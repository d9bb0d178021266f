import Mathlib.Logic.Relation
import Mathlib.Tactic.Linarith

/-! A limit guarded by a check that is not atomic with the act it allows.

Clients read how many acts there have been and, if that is below the limit, act later
without looking again. The state is the number of acts and the number of clients between
their check and their act, at most `k` of which there are at any time. -/

namespace CheckThenAct

inductive Step (limit : Int) (k : Nat) : Nat × Nat → Nat × Nat → Prop
  | check {acts pending : Nat} (below : (acts : Int) < limit) (room : pending < k) :
      Step limit k (acts, pending) (acts, pending + 1)
  | act {acts pending : Nat} : Step limit k (acts, pending + 1) (acts + 1, pending)
  /-- acts are undone or clients give up -/
  | ease {acts pending acts' pending' : Nat} (fewer : acts' ≤ acts) (less : pending' ≤ pending) :
      Step limit k (acts, pending) (acts', pending')

abbrev Run (limit : Int) (k : Nat) : Nat × Nat → Nat × Nat → Prop :=
  Relation.ReflTransGen (Step limit k)

/-- At most `k` clients are pending, and once the limit is reached the pending ones still fit
under `limit + k - 1`: the last client to pass the check saw an act to spare. -/
structure Within (limit : Int) (k acts pending : Nat) : Prop where
  few : pending ≤ k
  spare : limit ≤ acts → (acts : Int) + pending + 1 ≤ limit + k

variable {limit : Int} {k : Nat}

theorem Within.step {acts pending acts' pending' : Nat} (within : Within limit k acts pending)
    (step : Step limit k (acts, pending) (acts', pending')) :
    Within limit k acts' pending' := by
  obtain ⟨few, spare⟩ := within
  cases step with
  | check below room =>
    constructor
    · exact room
    · intro full
      omega
  | act =>
    constructor
    · omega
    · intro full
      by_cases already : limit ≤ acts
      · have room := spare already
        push_cast at *
        omega
      · push_cast at *
        omega
  | ease fewer less =>
    constructor
    · omega
    · intro full
      have room := spare (by omega)
      omega

theorem Within.run {acts pending acts' pending' : Nat} (within : Within limit k acts pending)
    (run : Run limit k (acts, pending) (acts', pending')) : Within limit k acts' pending' := by
  suffices kept : ∀ s, Run limit k (acts, pending) s → Within limit k s.1 s.2 from kept _ run
  intro s reached
  induction reached with
  | refl => exact within
  | tail _ step ih => exact ih.step step

/-- The limit is overshot by at most `k - 1`. -/
theorem acts_le_of_run {start acts pending : Nat} (positive : 1 ≤ k) (below : (start : Int) ≤ limit)
    (run : Run limit k (start, 0) (acts, pending)) : (acts : Int) ≤ limit + k - 1 := by
  have initially : Within limit k start 0 := ⟨Nat.zero_le k, fun _ => by omega⟩
  have within := initially.run run
  by_cases full : limit ≤ acts
  · have spare := within.spare full
    omega
  · omega

theorem Run.ease {s : Nat × Nat} {acts pending acts' pending' : Nat}
    (run : Run limit k s (acts, pending)) (fewer : acts' ≤ acts) (less : pending' ≤ pending) :
    Run limit k s (acts', pending') :=
  run.tail (.ease fewer less)

theorem Run.check {s : Nat × Nat} {acts pending pending' : Nat}
    (run : Run limit k s (acts, pending)) (below : (acts : Int) < limit) (room : pending < k)
    (one : pending' ≤ pending + 1) : Run limit k s (acts, pending') :=
  Run.ease (run.tail (.check below room)) (Nat.le_refl _) one

theorem Run.act {s : Nat × Nat} {acts pending pending' : Nat}
    (run : Run limit k s (acts, pending)) (one : pending' + 1 = pending) :
    Run limit k s (acts + 1, pending') := by
  subst one
  exact run.tail .act

end CheckThenAct
