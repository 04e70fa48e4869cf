import HftSystem.Trading.BookFeed

set_option relaxedAutoImplicit false
set_option autoImplicit false

/-!
# Replaying streams and snapshots

Two ways to bring the books of all tickers to the state that a stream announces: processing the
stream itself, and processing the CLEARs and ADDs that a snapshot of its feeds consists of.

## Main definitions

* `Trading.Stream` — a well-formed incremental stream.
* `Trading.snapshotUpdates` — the updates of a snapshot.

## Main results

* `Trading.safe_stream` — the books follow a piece of a stream.
* `Trading.safe_snapshotUpdates` — new books follow a snapshot.
-/

namespace Trading

open Common Exchange LimitOrderBook PriceTime Fallible MarketOrderBook

/-- The ids that a stream adds for a ticker. -/
def addedIds (us : List MEMarketUpdate) (t : ℕ) : List ℕ :=
  (us.filter fun u => u.type = .add ∧ u.tickerId = t).map MEMarketUpdate.orderId

/-- The feeds that a stream announces from the start. -/
def feedsOf (us : List MEMarketUpdate) : Option (ℕ → Feed) := us.foldlM announceAt fun _ => {}

/-- **A well-formed incremental stream**: it can be announced, the ids that it adds for a ticker
increase, and the live orders of a ticker are compatible after every prefix. -/
structure Stream (us : List MEMarketUpdate) : Prop where
  announced : (feedsOf us).isSome
  increasing : ∀ t, (addedIds us t).Pairwise (· < ·)
  compatible : ∀ pre, pre <+: us → ∀ fs, feedsOf pre = some fs → ∀ t, Compatible (fs t).live

/-- The ids that two streams add. -/
lemma addedIds_append (us us' : List MEMarketUpdate) (t : ℕ) :
    addedIds (us ++ us') t = addedIds us t ++ addedIds us' t := by
  simp [addedIds, List.filter_append]

/-- The feeds after one more update. -/
lemma feedsOf_append_singleton {us : List MEMarketUpdate} {u : MEMarketUpdate} {fs' : ℕ → Feed} :
    feedsOf (us ++ [u]) = some fs' ↔ ∃ fs, feedsOf us = some fs ∧ announceAt fs u = some fs' := by
  rw [feedsOf, List.foldlM_append, Option.bind_eq_bind, Option.bind_eq_some_iff]
  simp [feedsOf]

/-- A prefix of a stream that can be announced can be announced. -/
lemma feedsOf_isSome_of_append {us us' : List MEMarketUpdate} (h : (feedsOf (us ++ us')).isSome) :
    (feedsOf us).isSome := by
  rw [feedsOf, List.foldlM_append, Option.bind_eq_bind] at h
  exact Option.isSome_of_isSome_bind h

/-- The live orders of the announced feeds are at home. -/
lemma homed_feedsOf {us : List MEMarketUpdate} {fs : ℕ → Feed} (h : feedsOf us = some fs) :
    Homed fs := by
  induction us using List.reverseRecOn generalizing fs with
  | nil =>
    cases h
    exact homed_empty
  | append_singleton us u ih =>
    obtain ⟨fs₁, h₁, hu⟩ := feedsOf_append_singleton.mp h
    exact (ih h₁).announceAt hu

/-- The ids that a feed has added. -/
lemma added_feedsOf {us : List MEMarketUpdate} {fs : ℕ → Feed} (h : feedsOf us = some fs) (t : ℕ) :
    (fs t).added = (addedIds us t).reverse := by
  induction us using List.reverseRecOn generalizing fs with
  | nil =>
    cases h
    rfl
  | append_singleton us u ih =>
    obtain ⟨fs₁, h₁, hu⟩ := feedsOf_append_singleton.mp h
    obtain ⟨f, hf, rfl⟩ := Option.map_eq_some_iff.mp hu
    rw [addedIds_append, List.reverse_append, ← ih h₁]
    by_cases ht : t = u.tickerId
    · subst ht
      rw [Function.update_self]
      have hfollow : Feed.Announced (fs₁ u.tickerId) u f := Feed.announced_of_eq hf
      cases hfollow with
      | add htype _ => simp [addedIds, htype]
      | modify htype _ _ _ => simp [addedIds, htype]
      | cancel htype _ _ _ => simp [addedIds, htype]
      | other htype => rcases htype with htype | htype | htype | htype <;> simp [addedIds, htype]
    · rw [Function.update_of_ne ht]
      simp [addedIds, Ne.symm ht]

/-- A live order has the side and the price of an ADD of the stream. -/
lemma exists_add_of_live {us : List MEMarketUpdate} {fs : ℕ → Feed} (h : feedsOf us = some fs)
    {t : ℕ} {e : ℕ × MEMarketUpdate} (he : e ∈ (fs t).live.entries) :
    ∃ u ∈ us, u.type = .add ∧ e.2.side = u.side ∧ e.2.price = u.price := by
  induction us using List.reverseRecOn generalizing fs e with
  | nil =>
    cases h
    cases he
  | append_singleton us u ih =>
    obtain ⟨fs₁, h₁, hu⟩ := feedsOf_append_singleton.mp h
    obtain ⟨f, hf, rfl⟩ := Option.map_eq_some_iff.mp hu
    have hold : ∀ e ∈ (fs₁ t).live.entries,
        ∃ w ∈ us ++ [u], w.type = .add ∧ e.2.side = w.side ∧ e.2.price = w.price := by
      intro e he
      obtain ⟨w, hw, hadd⟩ := ih h₁ he
      exact ⟨w, List.mem_append_left _ hw, hadd⟩
    by_cases ht : t = u.tickerId
    · subst ht
      rw [Function.update_self] at he
      have hfollow : Feed.Announced (fs₁ u.tickerId) u f := Feed.announced_of_eq hf
      cases hfollow with
      | add htype _ =>
        rcases SortedMap.mem_insertEntry he with rfl | he
        · exact ⟨u, by simp, htype, rfl, rfl⟩
        · exact hold e he
      | @modify o _ hlive _ _ =>
        rcases SortedMap.mem_insertEntry he with rfl | he
        · exact hold (u.orderId, o) hlive
        · exact hold e he
      | cancel _ _ _ _ => exact hold e (List.mem_filter.mp he).1
      | other _ => exact hold e he
    · rw [Function.update_of_ne ht] at he
      exact hold e he

/-- An ADD of a well-formed stream has the largest id so far. -/
lemma Stream.lt_of_added {us pre : List MEMarketUpdate} (h : Stream us) {u : MEMarketUpdate}
    (hpre : pre ++ [u] <+: us) {fs : ℕ → Feed} (hfs : feedsOf pre = some fs) (htype : u.type = .add) :
    ∀ i ∈ (fs u.tickerId).added, i < u.orderId := by
  intro i hi
  rw [added_feedsOf hfs, List.mem_reverse] at hi
  obtain ⟨rest, rfl⟩ := hpre
  have hincreasing := h.increasing u.tickerId
  rw [addedIds_append, addedIds_append, List.append_assoc] at hincreasing
  refine (List.pairwise_append.mp hincreasing).2.2 i hi u.orderId (List.mem_append_left _ ?_)
  simp [addedIds, htype]

/-- The feeds after every prefix. -/
lemma Stream.exists_feeds {us pre : List MEMarketUpdate} (h : Stream us) (hpre : pre <+: us) :
    ∃ fs, feedsOf pre = some fs := by
  obtain ⟨rest, rfl⟩ := hpre
  exact Option.isSome_iff_exists.mp (feedsOf_isSome_of_append h.announced)

/-- The updates that announce nothing, and change no book: SNAPSHOT_START and SNAPSHOT_END. -/
def Unannounced (u : MEMarketUpdate) : Prop := u.type = .snapshotStart ∨ u.type = .snapshotEnd

/-- The markers of a snapshot announce nothing. -/
lemma announceAt_of_unannounced {fs : ℕ → Feed} {u : MEMarketUpdate} (h : Unannounced u) :
    announceAt fs u = some fs := by
  have hannounce : (fs u.tickerId).announce u = some (fs u.tickerId) := by
    rcases h with h | h <;> simp [Feed.announce, h]
  rw [announceAt, hannounce, Option.map_some, Function.update_eq_self]

/-- **The books follow a piece of a stream**, with or without updates that announce nothing.

**Proof sketch.** By induction on the updates of the piece. An update that is kept is dispatched to the
book of its ticker, which follows the feed (`safe_dispatch`): the live orders are compatible before and
after it, and an ADD has a larger id than all before, since the whole is a stream. An update that is
left out announces nothing, so the feeds stay as they were. -/
theorem safe_stream {us us₁ us₂ : List MEMarketUpdate} (h : Stream us) (hpre : us₁ ++ us₂ <+: us)
    (keep : MEMarketUpdate → Bool) (hkeep : ∀ u, keep u = false → Unannounced u)
    {books : ℕ → MarketOrderBook} {fs fs' : ℕ → Feed} (hfs : feedsOf us₁ = some fs)
    (hfs' : feedsOf (us₁ ++ us₂) = some fs') (hbooks : TracksAll books fs) :
    Safe (UpdatesFault us₂) (fun books' => TracksAll books' fs' ∧
        ∀ u ∈ us₂.filter keep, SnapshotSynthesizer.InTables u)
      (onMarketUpdates books (us₂.filter keep)) := by
  induction us₂ generalizing us₁ books fs with
  | nil =>
    rw [List.append_nil, hfs] at hfs'
    cases hfs'
    exact ⟨hbooks, by simp⟩
  | cons u us₂ ih =>
    have happend : us₁ ++ u :: us₂ = us₁ ++ [u] ++ us₂ := by simp
    rw [happend] at hpre hfs'
    have hu : us₁ ++ [u] <+: us := (List.prefix_append _ _).trans hpre
    obtain ⟨fs₁, hfs₁⟩ := h.exists_feeds hu
    obtain ⟨fs₀, hfs₀, hannounce⟩ := feedsOf_append_singleton.mp hfs₁
    obtain rfl := Option.some_inj.mp (hfs.symm.trans hfs₀)
    have hrest : ∀ books, TracksAll books fs₁ → Safe (UpdatesFault (u :: us₂))
        (fun books' => TracksAll books' fs' ∧ ∀ u ∈ us₂.filter keep, SnapshotSynthesizer.InTables u)
        (onMarketUpdates books (us₂.filter keep)) :=
      fun books hbooks => (ih hpre hfs₁ hfs' hbooks).mono
        (fun f hf => hf.mono fun _ hx => List.mem_cons_of_mem _ hx) fun _ hb => hb
    cases hk : keep u with
    | true =>
      rw [List.filter_cons_of_pos hk, onMarketUpdates, List.foldlM_cons]
      have hcompat := h.compatible us₁ ((List.prefix_append _ _).trans hu) fs hfs
      have hcompat' := h.compatible _ hu fs₁ hfs₁
      refine Safe.bind ((safe_dispatch hbooks (homed_feedsOf hfs) hannounce
        (fun htype => h.lt_of_added hu hfs htype) hcompat hcompat').mono (fun f hf => hf.mono ?_)
        fun _ hb => hb) ?_
      · exact fun x hx => List.mem_singleton.mp hx ▸ List.mem_cons_self ..
      · rintro books' ⟨hbooks', hin⟩
        refine (hrest books' hbooks').mono (fun _ hf => hf) fun books'' hbooks'' => ⟨hbooks''.1, ?_⟩
        intro w hw
        rcases List.mem_cons.mp hw with rfl | hw
        · exact hin
        · exact hbooks''.2 w hw
    | false =>
      rw [List.filter_cons_of_neg (by simp [hk])]
      rw [announceAt_of_unannounced (hkeep u hk)] at hannounce
      cases hannounce
      exact hrest books hbooks

/-! ## Snapshots -/

/-- A CLEAR of an empty book. -/
lemma safe_clear {b : MarketOrderBook} (h : Tracks b {}) {u : MEMarketUpdate} (htype : u.type = .clear) :
    Safe (UpdateFault u) (fun b' => Tracks b' {}) (b.onMarketUpdate u) := by
  obtain ⟨v, hb, hv⟩ := h
  have hempty : v.bids = [] ∧ v.asks = [] :=
    ⟨List.map_eq_nil_iff.mp (hv .buy (.inl rfl)), List.map_eq_nil_iff.mp (hv .sell (.inr rfl))⟩
  refine (safe_onMarketUpdate hb (by simpa only [Expected, htype] using hempty)).mono
    (fun _ hf => hf) ?_
  rintro b' ⟨v', hb', hv'⟩
  refine ⟨v', hb', fun s hs => ?_⟩
  rw [hv' s hs]
  simp only [effect, htype]
  rfl

/-- The book of a ticker follows the live orders that a snapshot adds, one after the other: those
of `live₁` are in, those of `rest` are still to come.

**Proof sketch.** By induction on the orders that are still to come. The next one has a larger id than
all that are in, so it is inserted behind them, and the orders with it are still compatible; the ADD is
then the step of `safe_tracks_add`, in the book of the ticker. -/
lemma safe_addLive {f : Feed} (htidy : f.Tidy) (hcompat : Compatible f.live) {t : ℕ}
    (hticker : ∀ e ∈ f.live.entries, e.2.tickerId = t) {books : ℕ → MarketOrderBook}
    {live₁ : SortedMap ℕ MEMarketUpdate} {rest : List (ℕ × MEMarketUpdate)}
    (hsplit : f.live.entries = live₁.entries ++ rest) (hbook : Tracks (books t) live₁) :
    Safe (UpdatesFault (rest.map Prod.snd))
      (fun books' => Tracks (books' t) f.live ∧ ∀ t' ≠ t, books' t' = books t')
      (onMarketUpdates books (rest.map Prod.snd)) := by
  induction rest generalizing live₁ books with
  | nil =>
    obtain rfl : f.live = live₁ := SortedMap.ext (by rw [hsplit, List.append_nil])
    exact ⟨hbook, fun _ _ => rfl⟩
  | cons e rest ih =>
    have hmem : e ∈ f.live.entries := by simp [hsplit]
    have htype := htidy.type e hmem
    have hid := htidy.orderId e hmem
    have ht := hticker e hmem
    have hlt : ∀ e' ∈ live₁.entries, e'.1 < e.2.orderId := by
      have hsorted := f.live.sorted
      rw [hsplit] at hsorted
      exact fun e' he' =>
        hid ▸ (List.pairwise_append.mp hsorted).2.2 e' he' e (List.mem_cons_self ..)
    have hinsert : (live₁.insert e.2.orderId e.2).entries = live₁.entries ++ [e] := by
      rw [SortedMap.entries_insert_of_lt hlt, hid]
    have hkeys : ∀ e' ∈ live₁.entries, e'.2.orderId = e'.1 := fun e' he' =>
      htidy.orderId e' (by simp [hsplit, he'])
    have hcompat₁ : Compatible (live₁.insert e.2.orderId e.2) := hcompat.mono (by
      rw [hinsert, hsplit]
      intro x hx
      simp only [List.mem_append, List.mem_cons] at hx ⊢
      tauto)
    have hstep : Safe (UpdatesFault [e.2]) (fun books' => e.2.tickerId < meMaxTickers ∧ ∃ b',
        Tracks b' (live₁.insert e.2.orderId e.2) ∧
          books' = Function.update books e.2.tickerId b') (dispatch books e.2) :=
      safe_dispatch_of fun _ => safe_tracks_add (ht ▸ hbook) htype hkeys hlt hcompat₁
    rw [List.map_cons, onMarketUpdates, List.foldlM_cons]
    refine Safe.bind (hstep.mono (fun f hf => hf.mono ?_) fun _ hb => hb) ?_
    · exact fun x hx => List.mem_singleton.mp hx ▸ List.mem_cons_self ..
    · rintro _ ⟨-, b', hb', rfl⟩
      rw [ht]
      have hsplit' : f.live.entries = (live₁.insert e.2.orderId e.2).entries ++ rest := by
        rw [hinsert, hsplit, List.append_assoc]
        rfl
      have hbook' : Tracks (Function.update books t b' t) (live₁.insert e.2.orderId e.2) := by
        rwa [Function.update_self]
      refine (ih hsplit' hbook').mono
        (fun f hf => hf.mono fun _ hx => List.mem_cons_of_mem _ hx) ?_
      rintro books' ⟨htracks, hother⟩
      exact ⟨htracks, fun t' hne => (hother t' hne).trans (Function.update_of_ne hne _ _)⟩

/-- The updates of a snapshot for one ticker. -/
def tickerUpdates (fs : ℕ → Feed) (t : ℕ) : List MEMarketUpdate :=
  { type := .clear, tickerId := t } :: (fs t).live.values

/-- The book of one ticker follows its part of a snapshot. -/
lemma safe_tickerUpdates {fs : ℕ → Feed} (hhomed : Homed fs) {t : ℕ}
    (hcompat : Compatible (fs t).live) {books : ℕ → MarketOrderBook} (hbook : Tracks (books t) {}) :
    Safe (UpdatesFault (tickerUpdates fs t))
      (fun books' => Tracks (books' t) (fs t).live ∧ ∀ t' ≠ t, books' t' = books t')
      (onMarketUpdates books (tickerUpdates fs t)) := by
  rw [tickerUpdates]
  generalize hu : ({ type := .clear, tickerId := t } : MEMarketUpdate) = u
  have htype : u.type = .clear := by rw [← hu]
  obtain rfl : u.tickerId = t := by rw [← hu]
  have hclear : Safe (UpdatesFault [u]) (fun books' => u.tickerId < meMaxTickers ∧ ∃ b',
      Tracks b' {} ∧ books' = Function.update books u.tickerId b') (dispatch books u) :=
    safe_dispatch_of fun _ => safe_clear hbook htype
  rw [onMarketUpdates, List.foldlM_cons]
  refine Safe.bind (hclear.mono (fun f hf => hf.mono ?_) fun _ hb => hb) ?_
  · exact fun x hx => List.mem_singleton.mp hx ▸ List.mem_cons_self ..
  · rintro _ ⟨-, b', hb', rfl⟩
    have hbook' : Tracks (Function.update books u.tickerId b' u.tickerId) {} := by
      rwa [Function.update_self]
    refine (safe_addLive (hhomed _).1 hcompat (hhomed _).2 (by simp) hbook').mono
      (fun f hf => hf.mono fun _ hx => List.mem_cons_of_mem _ hx) ?_
    rintro books' ⟨htracks, hother⟩
    exact ⟨htracks, fun t' hne => (hother t' hne).trans (Function.update_of_ne hne _ _)⟩

/-- The updates of a snapshot of some feeds: for every ticker a CLEAR and its live orders.
Irreducible, so that no tactic starts to run the books on them. -/
@[irreducible] def snapshotUpdates (fs : ℕ → Feed) : List MEMarketUpdate :=
  (List.range meMaxTickers).flatMap (tickerUpdates fs)

/-- The updates of a snapshot are those of its tickers. -/
lemma mem_snapshotUpdates {fs : ℕ → Feed} {u : MEMarketUpdate} :
    u ∈ snapshotUpdates fs ↔ ∃ t < meMaxTickers, u ∈ tickerUpdates fs t := by
  rw [snapshotUpdates, List.mem_flatMap]
  exact exists_congr fun t => and_congr_left' List.mem_range

/-- The tables have entries for the updates of a snapshot if they have entries for the updates of
the stream. -/
lemma inTables_snapshotUpdates {us : List MEMarketUpdate} {fs : ℕ → Feed}
    (hfs : feedsOf us = some fs) (hin : ∀ u ∈ us, SnapshotSynthesizer.InTables u) :
    ∀ u ∈ snapshotUpdates fs, SnapshotSynthesizer.InTables u := by
  intro u hu
  obtain ⟨t, htable, hu⟩ := mem_snapshotUpdates.mp hu
  rcases List.mem_cons.mp hu with rfl | hu
  · exact ⟨htable, by simp⟩
  · obtain ⟨e, he, rfl⟩ := List.mem_map.mp hu
    obtain ⟨htidy, hticker⟩ := homed_feedsOf hfs t
    -- the live order was added under the id of an ADD of the stream
    have hadded := htidy.added e he
    rw [added_feedsOf hfs, List.mem_reverse] at hadded
    obtain ⟨w, hw, hid⟩ := List.mem_map.mp hadded
    obtain ⟨hw, hadd⟩ := List.mem_filter.mp hw
    have htype : w.type = .add := (of_decide_eq_true hadd).1
    refine ⟨hticker e he ▸ htable, fun _ => ?_⟩
    rw [htidy.orderId e he, ← hid]
    exact (hin w hw).2 (.inl htype)

/-- The books of some tickers follow their parts of a snapshot. -/
lemma safe_flatMap_tickerUpdates {fs : ℕ → Feed} (hhomed : Homed fs)
    (hcompat : ∀ t, Compatible (fs t).live) {ts : List ℕ} (hnodup : ts.Nodup)
    {books : ℕ → MarketOrderBook} (hbooks : ∀ t ∈ ts, Tracks (books t) {}) :
    Safe (UpdatesFault (ts.flatMap (tickerUpdates fs)))
      (fun books' => (∀ t ∈ ts, Tracks (books' t) (fs t).live) ∧ ∀ t ∉ ts, books' t = books t)
      (onMarketUpdates books (ts.flatMap (tickerUpdates fs))) := by
  induction ts generalizing books with
  | nil => exact ⟨by simp, fun _ _ => rfl⟩
  | cons t ts ih =>
    obtain ⟨hnot, hnodup⟩ := List.nodup_cons.mp hnodup
    rw [List.flatMap_cons, onMarketUpdates, List.foldlM_append]
    refine Safe.bind ((safe_tickerUpdates hhomed (hcompat t)
      (hbooks t (List.mem_cons_self ..))).mono (fun f hf => hf.mono ?_) fun _ hb => hb) ?_
    · exact fun x hx => List.mem_append_left _ hx
    · rintro books₁ ⟨htracks, hother⟩
      have hbooks₁ : ∀ t' ∈ ts, Tracks (books₁ t') {} := fun t' ht' => by
        rw [hother t' (ne_of_mem_of_not_mem ht' hnot)]
        exact hbooks t' (List.mem_cons_of_mem _ ht')
      refine (ih hnodup hbooks₁).mono (fun f hf => hf.mono ?_) ?_
      · exact fun x hx => List.mem_append_right _ hx
      · rintro books₂ ⟨htracks₂, hother₂⟩
        refine ⟨fun t' ht' => ?_, fun t' ht' => ?_⟩
        · rcases List.mem_cons.mp ht' with rfl | ht'
          · rw [hother₂ _ hnot]
            exact htracks
          · exact htracks₂ t' ht'
        · obtain ⟨hne, hts⟩ := not_or.mp (List.mem_cons.not.mp ht')
          rw [hother₂ t' hts, hother t' hne]

/-- **New books follow a snapshot.** -/
theorem safe_snapshotUpdates {fs : ℕ → Feed} (hhomed : Homed fs)
    (hcompat : ∀ t, Compatible (fs t).live) {books : ℕ → MarketOrderBook}
    (hbooks : TracksAll books fun _ => {}) :
    Safe (UpdatesFault (snapshotUpdates fs)) (fun books' => TracksAll books' fs)
      (onMarketUpdates books (snapshotUpdates fs)) := by
  unfold snapshotUpdates
  have hnodup : (List.range meMaxTickers).Nodup := List.nodup_range
  have hmem : ∀ t, t ∈ List.range meMaxTickers ↔ t < meMaxTickers := fun _ => List.mem_range
  generalize List.range meMaxTickers = ts at hnodup hmem ⊢
  exact (safe_flatMap_tickerUpdates hhomed hcompat hnodup fun t ht => hbooks t ((hmem t).mp ht)).mono
    (fun _ hf => hf) fun _ hbooks' t ht => hbooks'.1 t ((hmem t).mpr ht)

end Trading
