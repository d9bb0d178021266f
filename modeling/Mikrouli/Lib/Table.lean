import Mathlib.Data.List.Nodup

/-! Tables whose unique constraints are part of the type. -/

namespace Store

/-- Rows of type `V`, no two of which agree on any of the unique `keys`. -/
structure Table (V : Type) {K : Type} (keys : List (V → K)) where
  rows : List V
  unique : ∀ k ∈ keys, (rows.map k).Nodup

namespace Table

variable {V K : Type} {keys : List (V → K)}

def empty : Table V keys := ⟨[], fun _ _ => List.nodup_nil⟩

def find? (t : Table V keys) (p : V → Bool) : Option V := t.rows.find? p

def delete (t : Table V keys) (p : V → Bool) : Table V keys :=
  ⟨t.rows.filter fun r => !p r, fun k hk =>
    (t.unique k hk).sublist (List.Sublist.map k List.filter_sublist)⟩

/-- Rewrites the rows that satisfy `p`; the unique keys stay. -/
def update (t : Table V keys) (p : V → Bool) (f : V → V)
    (kept : ∀ k ∈ keys, ∀ v, k (f v) = k v) : Table V keys :=
  ⟨t.rows.map fun r => if p r then f r else r, by
    intro k hk
    have same : (t.rows.map fun r => if p r then f r else r).map k = t.rows.map k := by
      rw [List.map_map]
      apply List.map_congr_left
      intro r _
      by_cases hit : p r <;> simp [hit, kept k hk]
    rw [same]
    exact t.unique k hk⟩

def count (t : Table V keys) (p : V → Bool) : Nat := t.rows.countP p

@[simp] theorem rows_empty : (empty : Table V keys).rows = [] := rfl

theorem eq_of_rows {t t' : Table V keys} (same : t.rows = t'.rows) : t = t' := by
  cases t
  cases t'
  simpa using same

theorem eq_of_key {t : Table V keys} {k : V → K} (hk : k ∈ keys) {r r' : V}
    (member : r ∈ t.rows) (member' : r' ∈ t.rows) (same : k r = k r') : r = r' :=
  List.inj_on_of_nodup_map (t.unique k hk) member member' same

theorem mem_delete {t : Table V keys} {p : V → Bool} {r : V} :
    r ∈ (t.delete p).rows ↔ r ∈ t.rows ∧ p r = false := by
  simp [delete, List.mem_filter]

theorem mem_update {t : Table V keys} {p : V → Bool} {f : V → V}
    {kept : ∀ k ∈ keys, ∀ v, k (f v) = k v} {r : V} :
    r ∈ (t.update p f kept).rows ↔ ∃ r' ∈ t.rows, (if p r' then f r' else r') = r := by
  simp [update, List.mem_map]

/-- An update that meets no row changes none. -/
theorem rows_update_of_none {t : Table V keys} {p : V → Bool} {f : V → V}
    (kept : ∀ k ∈ keys, ∀ v, k (f v) = k v) (missed : ∀ r ∈ t.rows, p r = false) :
    (t.update p f kept).rows = t.rows := by
  have same : ∀ r ∈ t.rows, (if p r then f r else r) = id r := by
    intro r member
    simp [missed r member]
  exact (List.map_congr_left same).trans (List.map_id t.rows)

theorem count_update {t : Table V keys} {p : V → Bool} {f : V → V}
    (kept : ∀ k ∈ keys, ∀ v, k (f v) = k v) {q : V → Bool} (same : ∀ v, q (f v) = q v) :
    (t.update p f kept).count q = t.count q := by
  rw [count, count, update, List.countP_map]
  congr 1
  funext v
  by_cases hit : p v <;> simp [hit, same]

theorem count_delete_le (t : Table V keys) (p q : V → Bool) :
    (t.delete p).count q ≤ t.count q :=
  List.Sublist.countP_le List.filter_sublist

/-- Deleting a row that counts makes the count less. -/
theorem count_delete_of_mem {t : Table V keys} {p q : V → Bool} {r : V} (member : r ∈ t.rows)
    (deleted : p r = true) (counts : q r = true) : (t.delete p).count q + 1 ≤ t.count q := by
  have parts := List.countP_eq_countP_filter_add t.rows q p
  have gone : 0 < (t.rows.filter p).countP q :=
    List.countP_pos_iff.mpr ⟨r, List.mem_filter.mpr ⟨member, deleted⟩, counts⟩
  have kept : (t.delete p).count q = (t.rows.filter fun r => !p r).countP q := rfl
  have all : t.count q = t.rows.countP q := rfl
  omega

variable [DecidableEq K]

/-- A value of a unique column that is there is there once. -/
theorem count_eq_one {t : Table V keys} {k : V → K} (hk : k ∈ keys) {r : V} {x : K}
    (member : r ∈ t.rows) (same : k r = x) : t.count (fun r => decide (k r = x)) = 1 := by
  have once := List.count_eq_one_of_mem (t.unique k hk) (List.mem_map_of_mem member)
  rw [same, List.count_eq_countP, List.countP_map] at once
  rw [← once, count]
  apply List.countP_congr
  simp

/-- The row with value `x` in the unique column `k`. -/
def byKey (t : Table V keys) (k : V → K) (x : K) : Option V :=
  t.rows.find? fun r => decide (k r = x)

/-- A row that shares a unique key with `v`: the row a unique violation names. -/
def clash? (t : Table V keys) (v : V) : Option V :=
  t.rows.find? fun r => keys.any fun k => decide (k r = k v)

theorem clash?_eq_none {t : Table V keys} {v : V} :
    t.clash? v = none ↔ ∀ r ∈ t.rows, ∀ k ∈ keys, k r ≠ k v := by
  simp [clash?, List.find?_eq_none]

theorem clash?_eq_some {t : Table V keys} {v r : V} (found : t.clash? v = some r) :
    r ∈ t.rows ∧ ∃ k ∈ keys, k r = k v := by
  refine ⟨List.mem_of_find?_eq_some found, ?_⟩
  simpa using List.find?_some found

/-- Inserts a row, or fails on a unique violation. -/
def insert? (t : Table V keys) (v : V) : Option (Table V keys) :=
  if free : t.clash? v = none then
    some ⟨v :: t.rows, by
      intro k hk
      rw [List.map_cons, List.nodup_cons]
      refine ⟨?_, t.unique k hk⟩
      rw [List.mem_map]
      rintro ⟨r, member, same⟩
      exact clash?_eq_none.mp free r member k hk same⟩
  else none

theorem byKey_eq_some {t : Table V keys} {k : V → K} (hk : k ∈ keys) {x : K} {r : V} :
    t.byKey k x = some r ↔ r ∈ t.rows ∧ k r = x := by
  constructor
  · intro found
    exact ⟨List.mem_of_find?_eq_some found, by simpa using List.find?_some found⟩
  · rintro ⟨member, same⟩
    cases found : t.byKey k x with
    | none =>
      have absent := List.find?_eq_none.mp found r member
      simp [same] at absent
    | some r' =>
      have member' : r' ∈ t.rows := List.mem_of_find?_eq_some found
      have same' : k r' = x := by simpa using List.find?_some found
      rw [eq_of_key hk member' member (same'.trans same.symm)]

theorem byKey_eq_none {t : Table V keys} {k : V → K} {x : K} :
    t.byKey k x = none ↔ ∀ r ∈ t.rows, k r ≠ x := by
  simp [byKey, List.find?_eq_none]

theorem insert?_eq_some {t t' : Table V keys} {v : V} :
    t.insert? v = some t' ↔ t.clash? v = none ∧ t'.rows = v :: t.rows := by
  unfold insert?
  split
  next free =>
    rw [Option.some.injEq]
    constructor
    · rintro rfl; exact ⟨free, rfl⟩
    · rintro ⟨_, rows⟩
      cases t'
      simp only at rows
      subst rows
      rfl
  next taken => simp [taken]

theorem insert?_eq_none {t : Table V keys} {v : V} :
    t.insert? v = none ↔ t.clash? v ≠ none := by
  unfold insert?
  split <;> simp_all

theorem count_insert {t t' : Table V keys} {v : V} (inserted : t.insert? v = some t')
    (p : V → Bool) : t'.count p = t.count p + if p v then 1 else 0 := by
  rw [count, (insert?_eq_some.mp inserted).2, List.countP_cons, count]

theorem byKey_insert {t t' : Table V keys} {v : V} (inserted : t.insert? v = some t')
    (k : V → K) (x : K) : t'.byKey k x = if k v = x then some v else t.byKey k x := by
  rw [byKey, (insert?_eq_some.mp inserted).2, List.find?_cons]
  by_cases same : k v = x <;> simp [same, byKey]

/-- A row is found under its unique key after an update that rewrote it. -/
theorem byKey_update {t : Table V keys} {k : V → K} (hk : k ∈ keys) (p : V → Bool) (f : V → V)
    (kept : ∀ k ∈ keys, ∀ v, k (f v) = k v) (x : K) :
    (t.update p f kept).byKey k x = (t.byKey k x).map fun r => if p r then f r else r := by
  rw [byKey, update, List.find?_map, byKey]
  congr 1
  apply congrArg (fun q => List.find? q t.rows)
  funext r
  by_cases hit : p r <;> simp [hit, kept k hk]

theorem byKey_delete_self {t : Table V keys} (k : V → K) (x : K) :
    (t.delete fun r => decide (k r = x)).byKey k x = none := by
  rw [byKey_eq_none]
  intro r member
  simpa using (mem_delete.mp member).2

theorem byKey_delete_of_ne {t : Table V keys} {k : V → K} {x y : K} (other : y ≠ x) :
    (t.delete fun r => decide (k r = x)).byKey k y = t.byKey k y := by
  rw [byKey, delete, List.find?_filter, byKey]
  congr 1
  funext r
  by_cases same : k r = y <;> simp [same, other]

end Table

end Store
