import Mikrouli.Properties.Provenance

/-! Where the redirects lead, over whole runs: to destinations that were submitted for the slug. -/

namespace Mikrouli

open Async Store

variable {D : Deployment}

/-- The user's slug led there when the run began, or some thread of it was asked to make it. -/
def Submitted (w₀ : World) (σ : Shared (mikrouliHttp D)) (userId slugKey url : String) : Prop :=
  (∃ l ∈ w₀.links.rows, l.userId = userId ∧ l.slugKey = slugKey ∧ l.originalUrl = url) ∨
    ∃ i, Submits (σ.own i) userId slugKey url

/-- Whoever may have had the slug lead there, or it was cached so when the run began. -/
def Traceable (w₀ : World) (σ : Shared (mikrouliHttp D)) (slugKey url : String) : Prop :=
  (∃ userId, Submitted w₀ σ userId slugKey url) ∨
    ∃ slug e, w₀.redis (LinkCacheService.cacheKey slug) = some e ∧ bpchar slug = slugKey ∧
      e.value = url

/-- A row leads where its owner had it lead, and what is read of a slug is traceable. -/
structure Traced (w₀ : World) (σ : Shared (mikrouliHttp D)) : Prop where
  rows : ∀ l ∈ σ.world.1.1.links.rows, Submitted w₀ σ l.userId l.slugKey l.originalUrl
  entries : ∀ slug e, σ.world.1.1.redis (LinkCacheService.cacheKey slug) = some e →
    Traceable w₀ σ (bpchar slug) e.value
  found : ∀ i slug l, Did (σ.own i) (.findLink slug) (some l) →
    Traceable w₀ σ (bpchar slug) l.originalUrl
  hits : ∀ i slug url, Did (σ.own i) (.redisGet (LinkCacheService.cacheKey slug)) (some url) →
    Traceable w₀ σ (bpchar slug) url

/-! ### Commands -/

section Commands

variable {i : Nat} {c : Cmd} {ch : Choice} {u u' : World} {res : Except AppError c.Res}

/-- A row of the table leads where it did, for the same user, or the command made it lead there:
by an INSERT of the row, or by an UPDATE of a row of the user's. -/
theorem destination_origin (returned : exec D.platform i c ch u = some (res, u')) {l : Link}
    (member : l ∈ u'.links.rows) :
    (∃ l₀ ∈ u.links.rows, l₀.userId = l.userId ∧ l₀.slugKey = l.slugKey ∧
      l₀.originalUrl = l.originalUrl) ∨
    (∃ fields, (.call (.inl (.inl c)) res : Event (mikrouliHttp D)) =
      .call (.inl (.inl (.insertLinkWithOutbox fields))) (.ok l)) ∨
    ∃ slug, c = .updateLink slug l.userId l.originalUrl ∧ l.slugKey = bpchar slug := by
  cases c with
  | insertLinkWithOutbox fields =>
    rcases exec_insertLinkWithOutbox returned with ⟨rfl, -⟩ | ⟨link, links, rfl, inserted, row, rfl⟩
    · exact .inl ⟨l, member, rfl, rfl, rfl⟩
    · rw [show _ = links.rows from rfl, (Table.insert?_eq_some.mp inserted).2] at member
      rcases List.mem_cons.mp member with rfl | old
      · exact .inr (.inl ⟨fields, rfl⟩)
      · exact .inl ⟨l, old, rfl, rfl, rfl⟩
  | updateLink slug userId url =>
    rcases exec_updateLink returned with ⟨rfl, -⟩ | ⟨n, -, rfl⟩
    · exact .inl ⟨l, member, rfl, rfl, rfl⟩
    · obtain ⟨l₀, old, same⟩ := World.mem_setOriginalUrl.mp member
      split at same
      next hit =>
        obtain ⟨key, rfl⟩ := hit
        subst same
        exact .inr (.inr ⟨slug, rfl, key⟩)
      · subst same
        exact .inl ⟨_, old, rfl, rfl, rfl⟩
  | deleteLink slug =>
    rcases exec_deleteLink returned with ⟨rfl, -⟩ | ⟨n, -, rfl⟩
    · exact .inl ⟨l, member, rfl, rfl, rfl⟩
    · exact .inl ⟨l, (Table.mem_delete.mp member).1, rfl, rfl, rfl⟩
  | _ =>
    rw [(exec_frame returned).links rfl] at member
    exact .inl ⟨l, member, rfl, rfl, rfl⟩

end Commands

/-! ### Steps -/

section Steps

variable {w₀ : World} {σ σ' : Shared (mikrouliHttp D)} {i : Nat} {slugKey url : String}

theorem Submitted.mono {userId : String} (grown : ∀ j, σ.own j ⊆ σ'.own j)
    (submitted : Submitted w₀ σ userId slugKey url) : Submitted w₀ σ' userId slugKey url :=
  submitted.imp id fun ⟨j, submits⟩ => ⟨j, submits.mono (grown j)⟩

theorem Traceable.mono (grown : ∀ j, σ.own j ⊆ σ'.own j) (traceable : Traceable w₀ σ slugKey url) :
    Traceable w₀ σ' slugKey url :=
  traceable.imp (Exists.imp fun _ => Submitted.mono grown) id

/-- What a thread may cache under a slug is traceable. -/
theorem Traced.source (traced : Traced w₀ σ) {slug : String}
    (source : (∃ userId, Submits (σ.own i) userId (bpchar slug) url) ∨ ReadsRow (σ.own i) slug url) :
    Traceable w₀ σ (bpchar slug) url := by
  rcases source with ⟨userId, submits⟩ | ⟨l, found, rfl⟩
  · exact .inl ⟨userId, .inr ⟨i, submits⟩⟩
  · exact traced.found i slug l found

variable {c : httpApi.Cmd} {ch : Choice} {res : Except AppError (httpApi.Res c)}
  {w : (mikrouliHttp D).World}

/-- An UPDATE leads where its own thread was asked to, for the owner of the row. -/
theorem submits_of_update {es : HttpEvents D} {slug userId : String}
    (authorised : Authorised es (.inl (.inl (.updateLink slug userId url)))) :
    Submits es userId (bpchar slug) url := by
  obtain ⟨identified, received, l, found, rfl⟩ := authorised
  exact .edited identified received found

/-- What a command leaves in the table and in the link cache. -/
theorem Traced.stores (traced : Traced w₀ σ) (authorised : Authorised (σ.own i) c)
    (returned : (mikrouliHttp D).exec i c ch σ.world = some (res, w)) :
    (∀ l ∈ w.1.1.links.rows, Submitted w₀ (σ.called i c res w) l.userId l.slugKey l.originalUrl) ∧
      ∀ slug e, w.1.1.redis (LinkCacheService.cacheKey slug) = some e →
        Traceable w₀ (σ.called i c res w) (bpchar slug) e.value := by
  have grown : ∀ j, σ.own j ⊆ (σ.called i c res w).own j := own_subset_called
  rcases c with (c | c) | c
  · have world := exec_inl_inl returned
    constructor
    · intro l member
      rcases destination_origin world member with
        ⟨l₀, old, owner, key, destination⟩ | ⟨fields, event⟩ | ⟨slug, rfl, key⟩
      · rw [← owner, ← key, ← destination]
        exact (traced.rows l₀ old).mono grown
      · have made : .call (.inl (.inl (.insertLinkWithOutbox fields))) (.ok l) ∈
            (σ.called i (.inl (.inl c)) res w).own i := by
          rw [← event]
          exact Shared.mem_own_called.mpr (.inl ⟨rfl, rfl⟩)
        cases event
        obtain ⟨acts, r, received, creates⟩ := authorised
        obtain ⟨owner, destination⟩ := answers_insertLinkWithOutbox ⟨i, ch, _, _, world⟩
        rw [← owner] at acts
        rw [← destination] at creates
        exact .inr ⟨i, .created (acts.mono (grown i)) (received.mono (grown i)) creates made⟩
      · rw [key]
        exact .inr ⟨i, (submits_of_update authorised).mono (grown i)⟩
    · intro slug e stored
      rcases entry_origin world stored with old | ⟨value, ex, rfl, -, rfl⟩
      · exact (traced.entries slug e old).mono grown
      · exact (traced.source (authorised.2 slug rfl)).mono grown
  · rw [exec_inl_inr returned]
    exact ⟨fun l member => (traced.rows l member).mono grown,
      fun slug e stored => (traced.entries slug e stored).mono grown⟩
  · rw [exec_inr returned]
    exact ⟨fun l member => (traced.rows l member).mono grown,
      fun slug e stored => (traced.entries slug e stored).mono grown⟩

theorem Traced.called (traced : Traced w₀ σ) (authorised : Authorised (σ.own i) c)
    (returned : (mikrouliHttp D).exec i c ch σ.world = some (res, w)) :
    Traced w₀ (σ.called i c res w) := by
  have grown : ∀ j, σ.own j ⊆ (σ.called i c res w).own j := own_subset_called
  obtain ⟨rows, entries⟩ := traced.stores authorised returned
  constructor
  · exact rows
  · exact entries
  · intro j slug l did
    rcases Shared.mem_own_called.mp did with ⟨-, new⟩ | old
    · cases new
      -- the row that is read is one of the table
      obtain ⟨-, failed | row⟩ := exec_findLink (exec_inl_inl returned)
      · cases failed
      · obtain ⟨member, key⟩ := World.link?_eq_some.mp (Except.ok.inj row).symm
        rw [← key]
        exact .inl ⟨l.userId, (traced.rows l member).mono grown⟩
    · exact (traced.found j slug l old).mono grown
  · intro j slug url did
    rcases Shared.mem_own_called.mp did with ⟨-, new⟩ | old
    · cases new
      -- a hit is an entry of the cache
      obtain ⟨-, ⟨-, failed⟩ | ⟨-, hit⟩⟩ := exec_redisGet (exec_inl_inl returned)
      · cases failed
      · obtain ⟨e, stored, -, rfl⟩ := Expiring.get_eq_some.mp (Except.ok.inj hit).symm
        exact (traced.entries slug e stored).mono grown
    · exact (traced.hits j slug url old).mono grown

theorem Traced.acts {G : Guard (mikrouliHttp D)} (traced : Traced w₀ σ)
    (acts : (mediation D).Acts G σ σ') : Traced w₀ σ' := by
  cases acts with
  | start n r _ _ =>
    have grown : ∀ j, σ.own j ⊆ (σ.started n r).own j :=
      fun j _ old => Shared.mem_own_started.mpr (.inr old)
    exact ⟨fun l member => (traced.rows l member).mono grown,
      fun slug e stored => (traced.entries slug e stored).mono grown,
      fun j slug l did => (traced.found j slug l (Shared.call_mem_own_started.mp did)).mono grown,
      fun j slug url did => (traced.hits j slug url (Shared.call_mem_own_started.mp did)).mono grown⟩
  | call pre returned _ => exact traced.called pre returned
  | env e _ => cases e <;> exact ⟨traced.rows, traced.entries, traced.found, traced.hits⟩

theorem Traced.initial (w : (mikrouliHttp D).World) :
    Traced w.1.1 (⟨w, []⟩ : Shared (mikrouliHttp D)) :=
  ⟨fun l member => .inl ⟨l, member, rfl, rfl, rfl⟩,
    fun slug e stored => .inr ⟨slug, e, stored, rfl, rfl⟩,
    fun _ _ _ did => absurd did List.not_mem_nil, fun _ _ _ did => absurd did List.not_mem_nil⟩

end Steps

/-! ### The whole run -/

section Runs

variable {G : Guard (mikrouliHttp D)} {w : (mikrouliHttp D).World} {c : Config (mikrouliHttp D)}
  {i : Nat}

theorem traced_of_reach (reach : Reach G (initial w) c) : Traced w.1.1 c.shared :=
  ((Contract.ofHistory_holds w : (mediation D).Holds G (initial w))).invariant
    (Contract.ofHistory_sound respond_mediated) (fun _ _ _ acts traced => traced.acts acts)
    (Traced.initial w) reach

/-- Every row leads where its owner had it lead, and a visitor is only sent where someone in charge
of the slug had it lead, however the requests interleave and whatever the stores fail at. -/
theorem traceable_of_redirected (reach : Reach G (initial w) c) :
    (∀ l ∈ c.shared.world.1.1.links.rows,
      Submitted w.1.1 c.shared l.userId l.slugKey l.originalUrl) ∧
      ∀ i slug ip userAgent url,
        c.Answered i (.redirect slug ip userAgent) (.redirect (.found url)) →
          Traceable w.1.1 c.shared (bpchar slug) url := by
  have traced := traced_of_reach reach
  refine ⟨traced.rows, fun i slug ip userAgent url answered => ?_⟩
  obtain ⟨slug', ip', userAgent', started, read⟩ := (mediation_holds reach).history_ok answered _ rfl
  -- the thread was asked for one slug only
  have asked := (asked_iff_started reach i _).mpr started
  cases Config.Asked.unique asked ⟨_, answered⟩
  rcases read with hit | ⟨l, found, rfl⟩
  · exact traced.hits i slug url hit
  · exact traced.found i slug l found

end Runs

/-! ### A concrete run -/

/-- The user makes a link; a visitor comes while it is not cached yet. -/
def visitedEarly : List (Move (mikrouliHttp .plain)) :=
  .start (.createLink 0 browser (.obj [("url", .str "https://ab.cd")])) ::
    (List.replicate 7 (.run 0 { draw := "abcdef" }) ++
      .start (.redirect "abcdef" none none) :: List.replicate 6 (.run 1 {}))

/-- Where thread `i` has sent its visitor. -/
def sentTo (c : Config (mikrouliHttp D)) (i : Nat) : Option (String × String) :=
  match c.threads[i]? with
  | some (.redirect slug _ _, .done (.redirect (.found url))) => some (slug, url)
  | _ => none

theorem answered_of_sentTo {c : Config (mikrouliHttp D)} {i : Nat} {slug url : String}
    (sent : sentTo c i = some (slug, url)) : ∃ ip userAgent,
      c.Answered i (.redirect slug ip userAgent) (.redirect (.found url)) := by
  unfold sentTo at sent
  split at sent
  next slug' ip userAgent url' thread =>
    cases sent
    exact ⟨ip, userAgent, thread⟩
  · cases sent

theorem traceable_of_redirected_visitedEarly : ∃ c,
    Reach anyStep (initial oneAccount) c ∧ sentTo c 1 = some ("abcdef", "https://ab.cd") ∧
      Traceable oneAccount.1.1 c.shared (bpchar "abcdef") "https://ab.cd" := by
  obtain ⟨c, reach, passed⟩ := exists_reach_of_play anyStep_of_anyReady (initial oneAccount)
    visitedEarly (fun c => decide (sentTo c 1 = some ("abcdef", "https://ab.cd"))) (by decide +kernel)
  have sent := of_decide_eq_true passed
  obtain ⟨ip, userAgent, answered⟩ := answered_of_sentTo sent
  exact ⟨c, reach, sent, (traceable_of_redirected reach).2 1 _ ip userAgent _ answered⟩

end Mikrouli
