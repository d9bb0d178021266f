import Mathlib.Data.Vector.Basic
import Mathlib.Logic.Equiv.Basic
import Mathlib.SetTheory.Cardinal.Finite

/-! Rejection sampling: what is taken from a stream of items, and how many streams of one
length give a word. -/

namespace Rejection

variable {β ι : Type} [DecidableEq ι] (pick : β → Option ι)

/-- The values of the first `k` accepted items. -/
def sample (k : Nat) (items : List β) : List ι := (items.filterMap pick).take k

/-- Any two values can be traded: a relabelling of the items exchanges the items of the one with
those of the other, and undoes itself. -/
structure Tradable (value : ι → Prop) where
  trade : ι → ι → β → β
  pick_trade : ∀ i j b, value i → value j → pick (trade i j b) = (pick b).map (Equiv.swap i j)
  trade_trade : ∀ i j b, value i → value j → trade i j (trade i j b) = b

variable {pick} {value : ι → Prop} (T : Tradable pick value)

/-- Trades the letters of two words position by position, each at its accepted item. -/
def Tradable.relabel : List ι → List ι → List β → List β
  | i :: u, j :: v, b :: items =>
    if (pick b).isSome then T.trade i j b :: relabel u v items
    else b :: relabel (i :: u) (j :: v) items
  | _, _, items => items

theorem Tradable.length_relabel (u v : List ι) (items : List β) :
    (T.relabel u v items).length = items.length := by
  induction items generalizing u v with
  | nil => cases u <;> cases v <;> rfl
  | cons b items ih =>
    cases u with
    | nil => rfl
    | cons i u =>
      cases v with
      | nil => rfl
      | cons j v =>
        simp only [relabel]
        split
        · exact congrArg Nat.succ (ih u v)
        · exact congrArg Nat.succ (ih (i :: u) (j :: v))

theorem Tradable.isSome_trade {i j : ι} (hi : value i) (hj : value j) (b : β) :
    (pick (T.trade i j b)).isSome = (pick b).isSome := by
  rw [T.pick_trade i j b hi hj, Option.isSome_map]

theorem Tradable.relabel_relabel {u v : List ι} (hu : ∀ i ∈ u, value i) (hv : ∀ j ∈ v, value j)
    (items : List β) : T.relabel u v (T.relabel u v items) = items := by
  induction items generalizing u v with
  | nil => cases u <;> cases v <;> rfl
  | cons b items ih =>
    cases u with
    | nil => rfl
    | cons i u =>
      cases v with
      | nil => rfl
      | cons j v =>
        obtain ⟨hi, hu'⟩ := List.forall_mem_cons.mp hu
        obtain ⟨hj, hv'⟩ := List.forall_mem_cons.mp hv
        simp only [relabel]
        -- a trade keeps which items are accepted, so both passes take the same branch
        by_cases accepted : (pick b).isSome = true
        · have again := accepted
          rw [← T.isSome_trade hi hj b] at again
          simp only [accepted, ↓reduceIte, relabel, again, T.trade_trade i j b hi hj, ih hu' hv']
        · simp only [accepted, Bool.false_eq_true, ↓reduceIte, relabel, ih hu hv]

/-- A stream that gives the first word gives the second after relabelling. -/
theorem Tradable.sample_relabel {u v : List ι} (hu : ∀ i ∈ u, value i) (hv : ∀ j ∈ v, value j)
    (size : u.length = v.length) {items : List β} (sampled : sample pick u.length items = u) :
    sample pick v.length (T.relabel u v items) = v := by
  induction items generalizing u v with
  | nil =>
    rw [sample, List.filterMap_nil, List.take_nil] at sampled
    subst sampled
    rw [List.eq_nil_of_length_eq_zero size.symm]
    rfl
  | cons b items ih =>
    cases u with
    | nil =>
      rw [List.eq_nil_of_length_eq_zero size.symm]
      rfl
    | cons i u =>
      cases v with
      | nil => cases size
      | cons j v =>
        obtain ⟨hi, hu'⟩ := List.forall_mem_cons.mp hu
        obtain ⟨hj, hv'⟩ := List.forall_mem_cons.mp hv
        simp only [relabel]
        cases picked : pick b with
        | none =>
          -- a rejected item is passed over in both streams
          rw [sample, List.filterMap_cons_none picked] at sampled
          simp only [Option.isSome_none, Bool.false_eq_true, ↓reduceIte]
          rw [sample, List.filterMap_cons_none picked]
          exact ih hu hv size sampled
        | some i' =>
          rw [sample, List.filterMap_cons_some picked, List.length_cons, List.take_succ_cons,
            List.cons.injEq] at sampled
          obtain ⟨rfl, sampled⟩ := sampled
          -- the accepted item gave the first letter, and its trade gives the other
          have traded : pick (T.trade i' j b) = some j := by
            rw [T.pick_trade i' j b hi hj, picked, Option.map_some, Equiv.swap_apply_left]
          simp only [Option.isSome_some, ↓reduceIte]
          rw [sample, List.filterMap_cons_some traded, List.length_cons, List.take_succ_cons]
          exact congrArg (j :: ·) (ih hu' hv' (Nat.succ.inj size) sampled)

/-- The streams of length `n` that give a word. -/
abbrev Streams (pick : β → Option ι) (n : Nat) (u : List ι) : Type :=
  {s : List.Vector β n // sample pick u.length s.toList = u}

variable [Finite β]

include T in
theorem Tradable.card_streams_le {u v : List ι} (hu : ∀ i ∈ u, value i) (hv : ∀ j ∈ v, value j)
    (size : u.length = v.length) (n : Nat) :
    Nat.card (Streams pick n u) ≤ Nat.card (Streams pick n v) := by
  let move : Streams pick n u → Streams pick n v := fun s =>
    ⟨⟨T.relabel u v s.1.toList, by rw [T.length_relabel, List.Vector.toList_length]⟩,
      T.sample_relabel hu hv size s.2⟩
  apply Nat.card_le_card_of_injective move
  intro s s' same
  have lists : T.relabel u v s.1.toList = T.relabel u v s'.1.toList :=
    congrArg (fun x => x.1.toList) same
  -- relabelling undoes itself
  have undone := congrArg (T.relabel u v) lists
  rw [T.relabel_relabel hu hv, T.relabel_relabel hu hv] at undone
  exact Subtype.ext (List.Vector.toList_injective undone)

include T in
/-- Of the streams of any length, equally many give each of two words of one size. -/
theorem Tradable.card_streams {u v : List ι} (hu : ∀ i ∈ u, value i) (hv : ∀ j ∈ v, value j)
    (size : u.length = v.length) (n : Nat) :
    Nat.card (Streams pick n u) = Nat.card (Streams pick n v) :=
  Nat.le_antisymm (T.card_streams_le hu hv size n) (T.card_streams_le hv hu size.symm n)

end Rejection
