import Mikrouli.Model.Footprint
import Mikrouli.Model.Stats
import Mikrouli.Properties.Alone

/-! What a link's owner is told about its clicks, over whole runs. -/

namespace Mikrouli

open Async Store

variable {P : Platform} {i : Nat} {w w' : World}

/-! ### Words -/

/-- The slugs of the table are words of the generator's alphabet. -/
def World.Words (w : World) : Prop :=
  ∀ l ∈ w.links.rows, ∀ c ∈ l.shortUrl.1.toList, c ∈ ALPHABET.toList

theorem letters_of_asSlug {draw : String} {slug : Char6} (generated : asSlug draw = some slug) :
    ∀ c ∈ slug.1.toList, c ∈ ALPHABET.toList := by
  unfold asSlug at generated
  split at generated
  · split at generated
    next size word =>
      cases generated
      intro c member
      exact of_decide_eq_true (List.all_eq_true.mp word c member)
    · cases generated
  · cases generated

/-- Only the insertion of a link brings a new slug. -/
theorem World.Words.exec {c : Cmd} {ch : Choice} {res : Except AppError c.Res} (words : w.Words)
    (inserts : ∀ fields, c = .insertLinkWithOutbox fields →
      ∀ c ∈ fields.shortUrl.1.toList, c ∈ ALPHABET.toList)
    (returned : exec P i c ch w = some (res, w')) : w'.Words := by
  cases c with
  | insertLinkWithOutbox fields =>
    rcases exec_insertLinkWithOutbox returned with
      ⟨rfl, -⟩ | ⟨link, links, -, inserted, row, rfl⟩
    · exact words
    · have rows := (Table.insert?_eq_some.mp inserted).2
      subst row
      intro l member
      rw [rows, List.mem_cons] at member
      rcases member with rfl | old
      -- the new row has the slug that was asked for
      · exact inserts fields rfl
      · exact words l old
  | updateLink slug userId originalUrl =>
    rcases exec_updateLink returned with ⟨rfl, -⟩ | ⟨n, -, rfl⟩
    · exact words
    · intro l member
      obtain ⟨l₀, old, rfl⟩ := World.mem_setOriginalUrl.mp member
      have before := words l₀ old
      split <;> exact before
  | deleteLink slug =>
    rcases exec_deleteLink returned with ⟨rfl, -⟩ | ⟨n, -, rfl⟩
    · exact words
    · exact fun l member => words l (Table.mem_delete.mp member).1
  | _ =>
    have frame := exec_frame returned
    rw [World.Words, frame.links rfl]
    exact words

section Words

variable {allowed : Choice → Prop}

theorem words_of_only {α : Type} {p : Prog α}
    (only : p.Only fun c : Cmd => ∀ fields, c ≠ .insertLinkWithOutbox fields) (words : w.Words) :
    Always (machine P) (alone P allowed) i (fun _ w' => w'.Words) p w := by
  refine Always.of_only only ?_ ?_ words
  · rintro w _ words ⟨ms, rfl⟩
    exact words
  · intro c ch w res w' other words _ returned
    exact words.exec (fun fields same => absurd same (other fields)) returned

/-- The link is inserted under the slug that was just generated. -/
theorem tryCreate_words {url userId : String} {expiresAt : Option Int} (words : w.Words) :
    Always (machine P) (alone P allowed) i (fun _ w' => w'.Words)
      (LinksService.tryCreate url userId expiresAt) w := by
  apply Always.bind
  apply alone_await
  intro ms ch res w₁ _ returned
  obtain ⟨rfl, slug, generated, rfl⟩ := exec_generateSlug returned
  apply alone_await
  intro ms' ch' res w₂ _ returned
  have words₁ : ((w.advance ms).advance ms').Words := words
  refine words₁.exec ?_ returned
  rintro fields ⟨⟩
  exact letters_of_asSlug generated

theorem createUnmetered_words {url userId : String} {explicit : Option (Option Int)}
    (words : w.Words) :
    Always (machine P) (alone P allowed) i (fun _ w' => w'.Words)
      (LinksService.createUnmetered url userId explicit) w := by
  refine Always.bind_inv ?_ fun expiresAt w words => ?_
  · refine words_of_only ?_ words
    cases explicit with
    | some expiry => trivial
    | none => exact .bind (.perform (by simp)) fun _ => trivial
  -- each attempt draws a slug of its own; the induction is on the attempts left
  · generalize MAX_SLUG_RETRIES = n
    induction n generalizing w with
    | zero => exact words
    | succ n ih =>
      refine Always.bind_inv (Always.tryCatch_inv ?_ fun e w words => ?_) fun link w words => ?_
      · exact Always.bind_inv (tryCreate_words words) fun _ _ words => words
      · split <;> exact words
      · cases link with
        | none => exact ih w words
        | some link => exact words

theorem create_words {url userId : String} {explicit : Option (Option Int)} (words : w.Words) :
    Always (machine P) (alone P allowed) i (fun _ w' => w'.Words)
      (LinksService.create P url userId explicit) w := by
  refine Always.bind_inv (words_of_only ?_ words) fun count w words => ?_
  · exact .bind (.perform (by simp)) fun now => .perform (by simp)
  refine Always.bind_inv (words_of_only ?_ words) fun limit w words => ?_
  · exact .bind (only_findOneOrFail (by simp)) fun _ => trivial
  split
  · exact words
  · exact createUnmetered_words words

theorem resolve_words {slug : String} (words : w.Words) :
    Always (machine P) (alone P allowed) i (fun _ w' => w'.Words)
      (RedirectService.resolve P slug) w :=
  words_of_only (only_resolve (by simp) (by simp) (by simp) (by simp)) words

/-- No request brings a slug with other letters. -/
theorem serve_words {r : Req} (words : w.Words) :
    Always (machine P) (alone P allowed) i (fun _ w' => w'.Words) (serve P r) w := by
  cases r with
  | createLink user url expiresAt =>
    apply Always.map
    have caches : ∀ (link : Link) {w : World}, w.Words →
        Always (machine P) (alone P allowed) i (fun _ w' => w'.Words)
          (do
            LinkCacheService.set link.shortUrl.1 link.originalUrl link.expiresAt
            pure (toPublicLinkSchema link) : Prog PublicLink) w := fun link w words =>
      words_of_only (.bind (only_cacheSet (by simp) (by simp)) fun _ => trivial) words
    unfold LinksController.create
    split
    · exact Always.bind_inv (createUnmetered_words words) fun link w words => caches link words
    · exact Always.bind_inv (create_words words) fun link w words => caches link words
  | createShortLink userId url expiresAt =>
    exact Always.bind_inv (create_words words) fun _ _ words => words
  | _ =>
    refine words_of_only ((serve_only P _).mono fun c issued fields same => ?_) words
    subst same
    cases issued

end Words

/-! ### Runs -/

/-- Requests one after the other, with the clock moving; any command may fail but those of
ClickHouse. -/
def clickRuns (P : Platform) : Regime (mikrouliWithStats P) where
  toSetting := (alone P fun _ => True).extend clickHouse fun _ ch => ch.fault = none
  idle w w' := ∃ ms, w' = (w.1.advance ms, w.2)
  next _ _ _ := True

/-- A redirect of the path that was answered with a location. -/
def redirected (slug : String) (s : Served (mikrouliWithStats P)) : Bool :=
  match s.request, s.answer with
  | .redirect path _ _, .ok (.redirect (.found _)) => decide (path = slug)
  | _, _ => false

/-- How many redirects a history answered on a slug. -/
def redirects (slug : String) (h : List (Served (mikrouliWithStats P))) : Nat :=
  h.countP (redirected slug)

/-- The request made the slug's row. -/
def creates (slug : String) (s : Served (mikrouliWithStats P)) : Bool :=
  (s.before.1.link? slug).isNone && (s.after.1.link? slug).isSome

/-- What happened since the slug's row was made for the last time, newest first. -/
def lifetime (slug : String) (h : List (Served (mikrouliWithStats P))) :
    List (Served (mikrouliWithStats P)) := h.takeWhile fun s => !creates slug s

/-- The request that made the slug's row for the last time, and what happened before. -/
def earlier (slug : String) (h : List (Served (mikrouliWithStats P))) :
    List (Served (mikrouliWithStats P)) := h.dropWhile fun s => !creates slug s

theorem redirects_split (slug : String) (h : List (Served (mikrouliWithStats P))) :
    redirects slug (lifetime slug h) + redirects slug (earlier slug h) = redirects slug h := by
  rw [redirects, redirects, ← List.countP_append, lifetime, earlier,
    List.takeWhile_append_dropWhile, redirects]

/-! ### Invariant -/

/-- ClickHouse holds a row for every redirect that was answered. -/
structure Tallied (h : List (Served (mikrouliWithStats P))) (w : World × List Click) : Prop where
  words : w.1.Words
  counted : ∀ slug, (clicksOf slug w.2).length = redirects slug h
  sized : ∀ c ∈ w.2, (codeUnits c.shortUrl).length = SLUG_LENGTH

/-- An exchange that is no redirect leaves the clicks as they are. -/
theorem Tallied.other {h : List (Served (mikrouliWithStats P))} {w : World × List Click}
    {s : Served (mikrouliWithStats P)} (tallied : Tallied h w) (words : s.after.1.Words)
    (clicks : s.after.2 = w.2) (none : ∀ slug, redirected slug s = false) :
    Tallied (s :: h) s.after where
  words := words
  counted slug := by
    rw [clicks, tallied.counted slug, redirects, redirects, List.countP_cons_of_neg]
    simp [none slug]
  sized := clicks ▸ tallied.sized

theorem alone_resolve_scheme {slug : String} {allowed : Choice → Prop} :
    Always (machine P) (alone P allowed) i
      (fun r _ => ∀ url, r = .ok (.active url) → hasHttpScheme P url = true)
      (RedirectService.resolve P slug) w := by
  apply Always.bind
  refine (Always.trivial _ _).mono fun r w₁ _ => ?_
  cases r with
  | error e => rintro url ⟨⟩
  | ok cached =>
    cases cached with
    | some cached =>
      dsimp only
      split
      · rintro url ⟨⟩
      next http =>
        rintro url ⟨⟩
        simpa using http
    | none =>
      apply Always.bind
      refine (Always.trivial _ _).mono fun r w₂ _ => ?_
      cases r with
      | error e => rintro url ⟨⟩
      | ok found =>
        cases found with
        | none => rintro url ⟨⟩
        | some link =>
          apply Always.bind
          refine (Always.trivial _ _).mono fun r w₃ _ => ?_
          cases r with
          | error e => rintro url ⟨⟩
          | ok expired =>
            dsimp only
            split
            · rintro url ⟨⟩
            split
            · rintro url ⟨⟩
            next http =>
              apply Always.bind
              refine (Always.trivial _ _).mono fun r w₄ _ => ?_
              cases r with
              | error e => rintro url ⟨⟩
              | ok _ =>
                rintro url ⟨⟩
                simpa using http

theorem clicks_kept {α : Type} {p : Prog α} {clicks : List Click} {Q : Except AppError α → World → Prop}
    (always : Always (machine P) (alone P fun _ => True) i Q p w) :
    Always ((machine P).extend clickHouse) (clickRuns P).toSetting i
      (fun r w' => Q r w'.1 ∧ w'.2 = clicks) p.lift (w, clicks) :=
  Always.lift (always.mono fun _ _ post => ⟨post, rfl⟩)

/-- The click of an active link is stored. -/
theorem record_tracked {path : String} {ip ua : Option String} {w : World × List Click}
    {Q : Except AppError Unit → World × List Click → Prop}
    (stored : ∀ ms row timestamp, row.shortUrl = path →
      Q (.ok ()) (w.1.advance ms, ⟨row, timestamp⟩ :: w.2)) :
    Always ((machine P).extend clickHouse) (clickRuns P).toSetting i Q
      (StatsService.record path ip ua) w := by
  apply Always.tryCatch
  apply Always.ask
  rintro w₀ ⟨ms, rfl⟩ ch res clicks works returned
  have up : ch.fault = none := works
  simp only [clickHouse, up, Option.isSome_none, Bool.false_eq_true, ↓reduceIte] at returned
  cases returned
  exact stored ms _ _ rfl

theorem redirect_tracked (blank : P.urlProtocol "" = none) {path : String}
    {ip ua : Option String} {h : List (Served (mikrouliWithStats P))} {w : World × List Click}
    (tallied : Tallied h w) :
    Always ((machine P).extend clickHouse) (clickRuns P).toSetting i
      (fun ans w' => Tallied (⟨.redirect path ip ua, ans, w, w'⟩ :: h) w')
      (serveWithStats P (.redirect path ip ua)) w := by
  apply Always.map
  unfold RedirectController.redirect
  split
  · exact tallied.other (s := ⟨_, _, _, w⟩) tallied.words rfl fun _ => rfl
  next size =>
    rw [not_not] at size
    apply Always.bind
    have resolved : Always (machine P) (alone P fun _ => True) i
        (fun r w' => w'.Words ∧ ∀ url, r = .ok (.active url) → hasHttpScheme P url = true)
        (RedirectService.resolve P path) w.1 :=
      (resolve_words tallied.words).and alone_resolve_scheme
    refine (clicks_kept resolved).mono fun r w₁ post => ?_
    obtain ⟨⟨words, http⟩, clicks⟩ := post
    cases r with
    | error e => exact tallied.other (s := ⟨_, _, _, w₁⟩) words clicks fun _ => rfl
    | ok resolution =>
      apply Always.bind
      cases resolution with
      | expired | notFound => exact tallied.other (s := ⟨_, _, _, w₁⟩) words clicks fun _ => rfl
      | active url =>
        have nonempty : url ≠ "" := by
          rintro rfl
          -- `resolve` answers with http(s) urls alone, and the empty url is none
          have scheme := http "" rfl
          simp [hasHttpScheme, blank] at scheme
        refine record_tracked fun ms row timestamp own => ?_
        have answer : applyRedirect (.active url) = .found url := if_neg nonempty
        refine ⟨words, fun slug => ?_, ?_⟩
        -- one redirect more on the path, and one click more under it
        · rw [redirects, List.countP_cons, ← redirects, ← tallied.counted slug, ← clicks]
          by_cases same : path = slug <;> simp [clicksOf, redirected, Except.map, answer, own, same]
        · rw [List.forall_mem_cons, clicks]
          exact ⟨own ▸ size, tallied.sized⟩

/-! ### Statistics -/

theorem clickHouse_reads {c : ClickHouseCmd} {ch : Choice} {clicks clicks' : List Click}
    {res : Except AppError c.Res} (reads : ∀ row, c ≠ .insert row)
    (returned : clickHouse c ch w clicks = some (res, clicks')) : clicks' = clicks := by
  unfold clickHouse at returned
  split at returned
  · cases returned
    rfl
  · cases c with
    | insert row => exact absurd rfl (reads row)
    | _ =>
      cases returned
      rfl

/-- The world was left to itself. -/
def World.Rests (w w' : World) : Prop := ∃ ms, w' = w.advance ms

theorem World.Rests.trans {w₁ w₂ w₃ : World} (first : w₁.Rests w₂) (second : w₂.Rests w₃) :
    w₁.Rests w₃ := by
  obtain ⟨ms, rfl⟩ := first
  obtain ⟨ms', rfl⟩ := second
  exact ⟨ms + ms', by simp [World.advance, Nat.add_assoc]⟩

/-- A query of ClickHouse leaves both worlds alone. -/
theorem ask_rests {c : ClickHouseCmd} (reads : ∀ row, c ≠ .insert row) {w : World × List Click} :
    Always ((machine P).extend clickHouse) (clickRuns P).toSetting i
      (fun _ w' => w.1.Rests w'.1 ∧ w'.2 = w.2) (awaitClickHouse c) w := by
  apply Always.ask
  intro w₀ rests ch res clicks _ returned
  exact ⟨rests, clickHouse_reads reads returned⟩

theorem getStats_counts {slug : String} {w : World × List Click} :
    Always ((machine P).extend clickHouse) (clickRuns P).toSetting i
      (fun r w' => (w.1.Rests w'.1 ∧ w'.2 = w.2) ∧
        ∀ stats, r = .ok stats → stats.totalClicks = (clicksOf slug w.2).length)
      (StatsService.getStats slug) w := by
  apply Always.bind
  apply Always.ask
  intro w₀ rests ch res clicks works returned
  have rests₀ : w.1.Rests w₀ := rests
  have up : ch.fault = none := works
  simp only [clickHouse, up, Option.isSome_none, Bool.false_eq_true, ↓reduceIte] at returned
  cases returned
  -- the other three queries do not change the total
  apply Always.bind
  refine (ask_rests (by simp)).mono fun r w₁ first => ?_
  have rests₁ := rests₀.trans first.1
  cases r with
  | error e => exact ⟨⟨rests₁, first.2⟩, by simp⟩
  | ok byDay =>
    apply Always.bind
    refine (ask_rests (by simp)).mono fun r w₂ second => ?_
    have rests₂ := rests₁.trans second.1
    cases r with
    | error e => exact ⟨⟨rests₂, second.2.trans first.2⟩, by simp⟩
    | ok countries =>
      apply Always.bind
      refine (ask_rests (by simp)).mono fun r w₃ third => ?_
      have rests₃ := rests₂.trans third.1
      have kept := third.2.trans (second.2.trans first.2)
      cases r with
      | error e => exact ⟨⟨rests₃, kept⟩, by simp⟩
      | ok browsers =>
        refine ⟨⟨rests₃, kept⟩, ?_⟩
        rintro stats ⟨⟩
        rfl

theorem verifyLinkOwnership_owner {slug userId : String} {allowed : Choice → Prop} :
    Always (machine P) (alone P allowed) i
      (fun r w' => w.Rests w' ∧ (r = .ok () → ∃ l, w.link? slug = some l ∧ l.userId = userId))
      (verifyLinkOwnership slug userId) w := by
  apply Always.bind
  apply alone_await
  intro ms ch res w₁ _ returned
  obtain ⟨rfl, rfl | rfl⟩ := exec_findLink returned
  · exact ⟨⟨ms, rfl⟩, by simp⟩
  · have same : (w.advance ms).link? slug = w.link? slug := rfl
    rw [same]
    cases found : w.link? slug with
    | none => exact ⟨⟨ms, rfl⟩, by simp⟩
    | some l =>
      dsimp only
      split
      · exact ⟨⟨ms, rfl⟩, by simp⟩
      next owner =>
        rw [not_not] at owner
        exact ⟨⟨ms, rfl⟩, fun _ => ⟨l, rfl, owner⟩⟩

theorem controller_counts {slug userId : String} {w : World × List Click} :
    Always ((machine P).extend clickHouse) (clickRuns P).toSetting i
      (fun r w' => (w.1.Rests w'.1 ∧ w'.2 = w.2) ∧ ∀ response, r = .ok response →
        response.totalClicks = (clicksOf slug w.2).length ∧
          ∃ l, w.1.link? slug = some l ∧ l.userId = userId)
      (StatsController.getStats slug userId) w := by
  apply Always.bind
  refine (clicks_kept verifyLinkOwnership_owner).mono fun r w₁ verified => ?_
  obtain ⟨⟨rests, owned⟩, kept⟩ := verified
  cases r with
  | error e => exact ⟨⟨rests, kept⟩, by simp⟩
  | ok _ =>
    apply Always.bind
    refine getStats_counts.mono fun r w₂ counted => ?_
    obtain ⟨⟨rests', kept'⟩, total⟩ := counted
    cases r with
    | error e => exact ⟨⟨rests.trans rests', kept'.trans kept⟩, by simp⟩
    | ok stats =>
      refine ⟨⟨rests.trans rests', kept'.trans kept⟩, ?_⟩
      rintro response ⟨⟩
      refine ⟨?_, owned rfl⟩
      rw [← kept]
      exact total stats rfl

theorem World.Words.rests (words : w.Words) (rests : w.Rests w') : w'.Words := by
  obtain ⟨ms, rfl⟩ := rests
  exact words

/-- Every request keeps clicks and redirects in step. -/
theorem serve_tracked (blank : P.urlProtocol "" = none) {r : StatsReq}
    {h : List (Served (mikrouliWithStats P))} {w : World × List Click} (tallied : Tallied h w) :
    Always ((machine P).extend clickHouse) (clickRuns P).toSetting i
      (fun ans w' => Tallied (⟨r, ans, w, w'⟩ :: h) w') (serveWithStats P r) w := by
  cases r with
  | api request =>
    apply Always.map
    refine (clicks_kept (serve_words tallied.words)).mono fun r w₁ post => ?_
    exact tallied.other (s := ⟨_, _, _, w₁⟩) post.1 post.2 fun _ => rfl
  | redirect path ip ua => exact redirect_tracked blank tallied
  | stats slug userId =>
    apply Always.map
    refine controller_counts.mono fun r w₁ post => ?_
    exact tallied.other (s := ⟨_, _, _, w₁⟩) (tallied.words.rests post.1.1) post.1.2 fun _ => rfl

theorem Tallied.session (blank : P.urlProtocol "" = none) {now : Nat}
    {h : List (Served (mikrouliWithStats P))} {w : World × List Click}
    (session : Session (clickRuns P) (World.empty now, []) h w) : Tallied h w := by
  -- no clicks at the start, none while the clock moves, and one more with every redirect
  refine session.invariant Tallied ?_ ?_ ?_
  · exact ⟨by simp [World.Words, World.empty], by simp [clicksOf, redirects], by simp⟩
  · rintro h w _ tallied ⟨ms, rfl⟩
    exact ⟨tallied.words, tallied.counted, tallied.sized⟩
  · exact fun h w r tallied _ => serve_tracked blank tallied

/-! ### Padded slugs -/

theorem length_le_codeUnits (s : String) : s.length ≤ (codeUnits s).length := by
  rw [← String.length_toList, codeUnits]
  induction s.toList with
  | nil => simp
  | cons c rest ih =>
    rw [List.flatMap_cons, List.length_append, List.length_cons]
    -- every character takes a code unit or two
    have units : 1 ≤ (if c.toNat < 65536 then [CodeUnit.whole c] else [.high c, .low c]).length := by
      split <;> simp
    omega

/-- Of the texts that compare equal to a word of the alphabet, only the word itself has six code
units: the others end with blanks. -/
theorem eq_of_codeUnits {slug : Char6} {s : String}
    (word : ∀ c ∈ slug.1.toList, c ∈ ALPHABET.toList) (same : bpchar s = bpchar slug.1)
    (size : (codeUnits s).length = SLUG_LENGTH) : s = slug.1 := by
  have trimmed := congrArg String.toList same
  simp only [bpchar, String.toList_ofList] at trimmed
  obtain ⟨n, padded⟩ := exists_eq_rdropWhile_append s.toList
  -- a word of the alphabet does not end with a blank
  have whole : slug.1.toList.rdropWhile (· = ' ') = slug.1.toList := by
    rw [List.rdropWhile_eq_self_iff]
    intro nonempty blank
    have letter := word _ (List.getLast_mem nonempty)
    rw [of_decide_eq_true blank] at letter
    exact absurd letter (by decide)
  rw [trimmed, whole] at padded
  have lengths := congrArg List.length padded
  have atMost := length_le_codeUnits s
  have six : slug.1.toList.length = SLUG_LENGTH := by
    rw [String.length_toList]
    exact slug.2
  rw [List.length_append, List.length_replicate, String.length_toList] at lengths
  have none : n = 0 := by omega
  rw [none, List.replicate_zero, List.append_nil] at padded
  exact String.toList_inj.mp padded

/-! ### Clicks of a lifetime -/

/-- What the owner of a link is shown is the number of redirects since the link was made exactly
if none was answered on its slug before; asked with a padded slug, exactly if there was none
since. -/
theorem clicks_of_lifetime_iff (blank : P.urlProtocol "" = none) {now : Nat}
    {h : List (Served (mikrouliWithStats P))} {w w' : World × List Click}
    (session : Session (clickRuns P) (World.empty now, []) h w) {slug userId : String} {l : Link}
    (existing : w.1.link? slug = some l) {response : StatsResponse}
    (shown : Runs ((machine P).extend clickHouse) (clickRuns P).toSetting i
      (StatsController.getStats slug userId) w (.ok response) w') :
    l.userId = userId ∧
      (response.totalClicks = redirects l.shortUrl.1 (lifetime l.shortUrl.1 h) ↔
        if slug = l.shortUrl.1 then redirects l.shortUrl.1 (earlier l.shortUrl.1 h) = 0
        else redirects l.shortUrl.1 (lifetime l.shortUrl.1 h) = 0) := by
  have tallied := Tallied.session blank session
  obtain ⟨total, l', found, owner⟩ := (controller_counts.runs shown).2 response rfl
  cases existing.symm.trans found
  refine ⟨owner, ?_⟩
  have split := redirects_split l.shortUrl.1 h
  split
  next same =>
    rw [total, same, tallied.counted]
    omega
  next padded =>
    obtain ⟨row, key⟩ := World.link?_eq_some.mp existing
    -- no redirect is answered on a path that is not six units long
    have never : clicksOf slug w.2 = [] := by
      rw [clicksOf, List.filter_eq_nil_iff]
      intro c member own
      have units := tallied.sized c member
      rw [of_decide_eq_true own] at units
      exact padded (eq_of_codeUnits (tallied.words l row) key.symm units)
    rw [total, never, List.length_nil]
    exact eq_comm

/-! ### Concrete runs -/

def signUp (email id : String) : Line (mikrouliWithStats Platform.plain) :=
  .serve (.api (.register email "Secret123")) [{ draw := "salt" }, { draw := id }, {}]

def shorten (id : String) : Line (mikrouliWithStats Platform.plain) :=
  .serve (.api (.createLink ⟨id, false⟩ "https://ab.cd" none))
    [{}, {}, {}, {}, { draw := "abcdef" }, {}, {}, {}]

def visit : Line (mikrouliWithStats Platform.plain) := .serve (.redirect "abcdef" none none) [{}, {}]

def discard (id : String) : Line (mikrouliWithStats Platform.plain) :=
  .serve (.api (.removeLink id "abcdef")) [{}, {}, {}]

/-- What the user is shown about the slug at the end of a run. -/
def showsTo (id : String) (w : World × List Click) : Option Nat :=
  match replay ((machine Platform.plain).extend clickHouse) 9
      (StatsController.getStats "abcdef" id) [{}, {}, {}, {}, {}] w with
  | some (.ok response, _) => some response.totalClicks
  | _ => none

theorem clickRuns_still (w : World × List Click) : (clickRuns Platform.plain).drift w w :=
  ⟨⟨0, rfl⟩, rfl⟩

theorem allow_of_works {ch : Choice} (works : ch.fault = none) (c : apiWithStats.Cmd)
    (w : World × List Click) : (clickRuns Platform.plain).allow c ch w := by
  cases c with
  | inl c => trivial
  | inr c => exact works

theorem exists_shown {id : String} {w : World × List Click} {n : Nat}
    (shows : showsTo id w = some n) :
    ∃ response w', Runs ((machine Platform.plain).extend clickHouse)
      (clickRuns Platform.plain).toSetting 9 (StatsController.getStats "abcdef" id) w
      (.ok response) w' ∧ response.totalClicks = n := by
  unfold showsTo at shows
  split at shows
  next response w' replayed =>
    cases shows
    refine ⟨response, w', runs_of_replay clickRuns_still (fun ch member => ?_) replayed, rfl⟩
    have works : ∀ ch ∈ List.replicate 5 ({} : Choice), ch.fault = none := by simp
    exact allow_of_works (works ch member)
  · cases shows

/-- Requests during which nothing fails. -/
def faultless : Line (mikrouliWithStats Platform.plain) → Bool
  | .serve _ chs => chs.all fun ch : Choice => decide (ch.fault = none)
  | .tick _ => false

theorem exists_clickRun (lines : List (Line (mikrouliWithStats Platform.plain)))
    (works : lines.all faultless = true)
    (test : List (Served (mikrouliWithStats Platform.plain)) → World × List Click → Bool)
    (passed : ((recite (fun _ _ _ => true) lines [] (World.empty 5000, [])).any
      fun x => test x.1 x.2) = true) :
    ∃ h w, Session (clickRuns Platform.plain) (World.empty 5000, []) h w ∧ test h w = true := by
  refine exists_session_of_recite clickRuns_still (fun _ _ _ _ => trivial) _ lines ?_ test passed
  intro line member
  have clean := List.all_eq_true.mp works line member
  cases line with
  | tick e => cases clean
  | serve r chs =>
    intro ch there
    exact allow_of_works (of_decide_eq_true (List.all_eq_true.mp clean ch there))

theorem clicks_of_lifetime_iff_visited :
    ∃ h w response w', Session (clickRuns Platform.plain) (World.empty 5000, []) h w ∧
      Runs ((machine Platform.plain).extend clickHouse) (clickRuns Platform.plain).toSetting 9
        (StatsController.getStats "abcdef" "id1") w (.ok response) w' ∧
      redirects "abcdef" (lifetime "abcdef" h) = 2 ∧
      response.totalClicks = redirects "abcdef" (lifetime "abcdef" h) := by
  obtain ⟨h, w, session, passed⟩ := exists_clickRun
    [signUp "u@ab.cd" "id1", shorten "id1", visit, visit] rfl
    (fun h w => (w.1.link? "abcdef").any (fun l => decide (l.shortUrl.1 = "abcdef")) &&
      decide (showsTo "id1" w = some 2) && decide (redirects "abcdef" (lifetime "abcdef" h) = 2) &&
      decide (redirects "abcdef" (earlier "abcdef" h) = 0)) (by decide +kernel)
  simp only [Bool.and_eq_true, decide_eq_true_eq] at passed
  obtain ⟨⟨⟨existing, shows⟩, since⟩, before⟩ := passed
  obtain ⟨l, existing, named⟩ := (Option.any_eq_true _ _).mp existing
  have named := of_decide_eq_true named
  obtain ⟨response, w', shown, -⟩ := exists_shown shows
  have iff := (clicks_of_lifetime_iff rfl session existing shown).2
  rw [named, if_pos rfl] at iff
  exact ⟨h, w, response, w', session, shown, since, iff.mpr before⟩

/-- A click on a deleted link is shown to the owner of the next link with its slug. -/
theorem clicks_of_deleted_link :
    ¬∀ (now i : Nat) (h : List (Served (mikrouliWithStats Platform.plain)))
      (w w' : World × List Click) (slug userId : String) (l : Link) (response : StatsResponse),
      Session (clickRuns Platform.plain) (World.empty now, []) h w → w.1.link? slug = some l →
      Runs ((machine Platform.plain).extend clickHouse) (clickRuns Platform.plain).toSetting i
        (StatsController.getStats slug userId) w (.ok response) w' →
      response.totalClicks = redirects l.shortUrl.1 (lifetime l.shortUrl.1 h) := by
  intro equal
  obtain ⟨h, w, session, passed⟩ := exists_clickRun
    [signUp "u@ab.cd" "id1", signUp "v@ab.cd" "id2", shorten "id1", visit, discard "id1", shorten "id2"]
    rfl
    (fun h w => (w.1.link? "abcdef").any (fun l => decide (l.shortUrl.1 = "abcdef")) &&
      decide (showsTo "id2" w = some 1) && decide (redirects "abcdef" (lifetime "abcdef" h) = 0))
    (by decide +kernel)
  simp only [Bool.and_eq_true, decide_eq_true_eq] at passed
  obtain ⟨⟨existing, shows⟩, since⟩ := passed
  obtain ⟨l, existing, named⟩ := (Option.any_eq_true _ _).mp existing
  have named := of_decide_eq_true named
  obtain ⟨response, w', shown, total⟩ := exists_shown shows
  have same := equal _ _ h w w' _ _ l response session existing shown
  rw [named, since, total] at same
  cases same

end Mikrouli
