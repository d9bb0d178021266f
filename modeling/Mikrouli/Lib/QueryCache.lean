import Mathlib.Data.Option.Basic
import Mathlib.Data.List.Basic

/-! One query of a request cache: what it keeps of its answers, and the request it waits for.

Every answer is kept with its source, the party on whose behalf its request was sent. An operation
on the query never makes an answer of one source into one of another. -/

namespace QueryCache

variable {σ β : Type}

/-- An answer, and on whose behalf its request was sent. -/
structure Reply (σ β : Type) where
  source : σ
  body : β
  deriving DecidableEq, Repr

structure Query (σ β : Type) where
  data : Option (Reply σ β)
  error : Option (Reply σ β)
  /-- the source of the request that has no answer yet -/
  fetching : Option σ
  invalidated : Bool

namespace Query

def empty : Query σ β where
  data := none
  error := none
  fetching := none
  invalidated := false

/-- A request goes out, unless one is under way. Without data, the error is forgotten. -/
def fetch (source : σ) (q : Query σ β) : Query σ β :=
  match q.fetching with
  | some _ => q
  | none =>
    { q with
      fetching := some source
      -- an observer then shows its loading state again
      error := if q.data.isNone then none else q.error }

/-- An observer arrives: it shares the data there are, and fetches where they are stale. -/
def mount (stale : Bool) (source : σ) (q : Query σ β) : Query σ β :=
  if q.data.isNone || q.invalidated || stale then q.fetch source else q

def invalidate (q : Query σ β) : Query σ β := { q with invalidated := true }

/-- A request that is under way is given up for a new one, if there are data to show meanwhile. -/
def refetch (source : σ) (q : Query σ β) : Query σ β :=
  if q.fetching.isSome && q.data.isSome then { q with fetching := some source } else q.fetch source

/-- Data from an answer, or set by hand: then a request under way is not given up. -/
def setData (reply : Reply σ β) (q : Query σ β) : Query σ β :=
  { q with data := some reply, error := none, invalidated := false }

def succeed (reply : Reply σ β) (q : Query σ β) : Query σ β :=
  { q.setData reply with fetching := none }

/-- The data stay. -/
def fail (reply : Reply σ β) (q : Query σ β) : Query σ β :=
  { q with error := some reply, fetching := none, invalidated := true }

def retry (source : σ) (q : Query σ β) : Query σ β := { q with fetching := some source }

/-- The data come from some sources, which may depend on whether there is an error beside them,
errors and the request under way from others. -/
structure From (own : Bool → σ → Prop) (sent : σ → Prop) (q : Query σ β) : Prop where
  data : ∀ r, q.data = some r → own q.error.isSome r.source
  error : ∀ r, q.error = some r → sent r.source
  fetching : ∀ s, q.fetching = some s → sent s

section Rules

variable {own : Bool → σ → Prop} {sent : σ → Prop} {q : Query σ β} {source : σ}
  {reply : Reply σ β}

theorem From.mono {own' : Bool → σ → Prop} {sent' : σ → Prop}
    (weaker : ∀ failed s, own failed s → own' failed s)
    (weaker' : ∀ s, sent s → sent' s) (h : q.From own sent) : q.From own' sent' := by
  constructor
  case data => exact fun r kept => weaker _ _ (h.data r kept)
  case error => exact fun r kept => weaker' _ (h.error r kept)
  case fetching => exact fun s waits => weaker' _ (h.fetching s waits)

theorem From.empty : (empty : Query σ β).From own sent :=
  ⟨nofun, nofun, nofun⟩

theorem From.fetch (h : q.From own sent) (sends : sent source) : (q.fetch source).From own sent := by
  unfold Query.fetch
  split
  · exact h
  constructor
  case data =>
    -- where there are data, the error stays with them
    intro r kept
    have data := h.data r kept
    dsimp only at kept ⊢
    simpa [kept] using data
  case error =>
    intro r kept
    dsimp only at kept
    split at kept
    · cases kept
    · exact h.error r kept
  case fetching =>
    rintro s ⟨⟩
    exact sends

theorem From.mount {stale : Bool} (h : q.From own sent) (sends : sent source) :
    (q.mount stale source).From own sent := by
  unfold Query.mount
  split
  · exact h.fetch sends
  · exact h

theorem From.invalidate (h : q.From own sent) : q.invalidate.From own sent :=
  ⟨h.data, h.error, h.fetching⟩

theorem From.retry (h : q.From own sent) (sends : sent source) : (q.retry source).From own sent := by
  refine ⟨h.data, h.error, ?_⟩
  rintro s ⟨⟩
  exact sends

theorem From.refetch (h : q.From own sent) (sends : sent source) :
    (q.refetch source).From own sent := by
  -- given up or not, the request under way was sent by one of `sent`
  unfold Query.refetch
  split
  · exact h.retry sends
  · exact h.fetch sends

theorem From.setData (h : q.From own sent) (owns : own false reply.source) :
    (q.setData reply).From own sent := by
  refine ⟨?_, nofun, h.fetching⟩
  rintro r ⟨⟩
  exact owns

theorem From.succeed (h : q.From own sent) (owns : own false reply.source) :
    (q.succeed reply).From own sent :=
  ⟨(h.setData owns).data, (h.setData owns).error, nofun⟩

theorem From.fail (h : q.From own sent) (weaker : ∀ failed s, own failed s → own true s)
    (sends : sent reply.source) : (q.fail reply).From own sent := by
  refine ⟨fun r kept => weaker _ _ (h.data r kept), ?_, nofun⟩
  rintro r ⟨⟩
  exact sends

end Rules

/-! ### Data stay -/

section Data

variable {q : Query σ β} {source : σ}

@[simp] theorem data_fetch : (q.fetch source).data = q.data := by
  unfold fetch
  split <;> rfl

@[simp] theorem data_mount {stale : Bool} : (q.mount stale source).data = q.data := by
  unfold mount
  split
  · exact data_fetch
  · rfl

@[simp] theorem data_refetch : (q.refetch source).data = q.data := by
  unfold refetch
  split
  · rfl
  · exact data_fetch

/-- An error is only forgotten where there are no data. -/
theorem error_fetch (stays : q.data.isSome = true ∨ q.error = none) :
    (q.fetch source).error = q.error := by
  unfold fetch
  split
  · rfl
  · rcases stays with data | clear
    · rw [← Option.not_isSome, data]
      rfl
    · simp [clear]

theorem error_mount {stale : Bool} (stays : q.data.isSome = true ∨ q.error = none) :
    (q.mount stale source).error = q.error := by
  unfold mount
  split
  · exact error_fetch stays
  · rfl

end Data

end Query

end QueryCache
