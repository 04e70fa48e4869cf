import HftSystem.Common.BookView
import HftSystem.Lib.RingLoop

set_option relaxedAutoImplicit false
set_option autoImplicit false

/-!
# What a book prints

`toString` of the two book classes. It goes around the levels of each side and around the queue of
each level, and with its second argument set, as the destructors call it, it ends the process when the
prices of a side are not in order. The printout only depends on what the book lists, not on
where its pools keep it.

## Main definitions

* `Common.PrintedOrder` — what a book prints of an order.
* `Common.LimitOrderBook.printLevel`, `Common.LimitOrderBook.printSide`,
  `Common.LimitOrderBook.print` — `printer` and `toString`.
* `Common.bookText` — the printout of what two sides list.
* `Common.PricesInOrder` — the prices of a side pass the check.
* `Common.Prints` — what printing comes to.

## Main results

* `Common.Represents.printLevel_eq` — the printout of a level.
* `Common.Represents.prints` — the printout of a book, with the exact condition of the check.
-/

namespace Common

open CircularList LimitOrderBook Fallible PriceTime

/-- **What a book prints of an order**: its id, its quantity and, where a level is printed whole, its
text, which depends on the ids of its neighbours too. -/
class PrintedOrder (ω : Type) where
  orderId : ω → ℕ
  qty : ω → ℕ
  text : ω → ℕ → ℕ → String
  levelName : String
  firstName : String

/-! ## The texts -/

/-- `%3s` and the like. -/
def padLeft (width : ℕ) (s : String) : String := "".pushn ' ' (width - s.length) ++ s

/-- `%-3s` and the like. -/
def padRight (width : ℕ) (s : String) : String := s.pushn ' ' (width - s.length)

/-- The text of a level, given the prices of its neighbours. -/
def levelText (price prevPrice nextPrice : ℤ) (qty numOrders : ℕ) : String :=
  " <px:" ++ padLeft 3 (priceToString price) ++ " p:" ++ padLeft 3 (priceToString prevPrice) ++ " n:" ++
    padLeft 3 (priceToString nextPrice) ++ "> " ++ padRight 3 (priceToString price) ++ " @ " ++
    padRight 5 (qtyToString qty) ++ "(" ++ padRight 4 (toString numOrders) ++ ")"

/-- The text of an order in the detailed printout, given the ids of its neighbours. -/
def orderText (orderId qty prevOrderId nextOrderId : ℕ) : String :=
  "[oid:" ++ orderIdToString orderId ++ " q:" ++ qtyToString qty ++ " p:" ++
    orderIdToString prevOrderId ++ " n:" ++ orderIdToString nextOrderId ++ "] "

/-- What stands in front of the text of a level. -/
def levelHead (side : Side) (count : ℕ) : String :=
  (if side = .sell then "ASKS" else "BIDS") ++ " L:" ++ toString count ++ " => "

/-- The printout, given those of the asks and of the bids. -/
def sidesText (tickerId : ℕ) (asks bids : String) : String :=
  "Ticker:" ++ tickerIdToString tickerId ++ "\n" ++ asks ++ "\n" ++ "                          X" ++ "\n\n" ++
    bids

/-- `last_ask_price` and `last_bid_price` before the first level. -/
def startPrice (side : Side) : ℤ := if side = .sell then -2 ^ 63 else 2 ^ 63 - 1

/-- The text of `FATAL`. -/
def notSortedMsg (lastPrice : ℤ) (level : String) : String :=
  "Bids/Asks not sorted by ascending/descending prices last:" ++ priceToString lastPrice ++ " itr:" ++ level

/-! ## `toString` -/

namespace LimitOrderBook

variable {ω κ : Type} [PrintedOrder ω] (b : LimitOrderBook ω κ)

/-- The id of an order, or `OrderId_INVALID` without one. -/
def idAt : Option Ptr → ℕ
  | some p => PrintedOrder.orderId (b.node p).order
  | none => OrderId.invalid

/-- The price of a level, or `Price_INVALID` without one. -/
def priceAt : Option Ptr → ℤ
  | some a => (b.level a).price
  | none => Price.invalid

/-- `toString` of an order. -/
def orderToString (p : Ptr) : String :=
  PrintedOrder.text (b.node p).order (b.idAt (b.node p).prevOrder) (b.idAt (b.node p).nextOrder)

/-- `toString` of a level. -/
def ordersAtPriceToString (a : Ptr) : String :=
  PrintedOrder.levelName ω ++ "[side:" ++ sideToString (b.level a).side ++ " price:" ++
    priceToString (b.level a).price ++ " " ++ PrintedOrder.firstName ω ++ ":" ++
    (match (b.level a).firstOrder with
      | some p => b.orderToString p
      | none => "null") ++
    " prev:" ++ priceToString (b.priceAt (b.level a).prevEntry) ++ " next:" ++
    priceToString (b.priceAt (b.level a).nextEntry) ++ "]"

/-- The loop over the orders of a level. -/
def aroundOrders {σ : Type} (body : σ → Ptr → σ) (s : σ) (first : Ptr) : Except Fault σ :=
  traverse (fun p => (b.node p).nextOrder) first (fun s p => .ok (body s p))
    (fun _ => .error .nullPointer) .diverges (b.orderPool.size + 1) s first

/-- `printer`, but for the check. The total quantity is a `uint32_t`. -/
def printLevel (detailed : Bool) (a : Ptr) : Except Fault String := do
  let first ← deref (b.level a).firstOrder
  let (qty, numOrders) ← b.aroundOrders
    (fun t p => ((t.1 + PrintedOrder.qty (b.node p).order) % 2 ^ 32, t.2 + 1)) (0, 0) first
  let prev ← deref (b.level a).prevEntry
  let next ← deref (b.level a).nextEntry
  let orders ← b.aroundOrders
    (fun text p =>
      if detailed then
        text ++ orderText (PrintedOrder.orderId (b.node p).order) (PrintedOrder.qty (b.node p).order)
          (b.idAt (b.node p).prevOrder) (b.idAt (b.node p).nextOrder)
      else text) "" first
  return levelText (b.level a).price (b.level prev).price (b.level next).price qty numOrders ++ orders ++ "\n"

/-- The variables of the loop over the levels of a side. -/
structure Printing where
  count : ℕ := 0
  lastPrice : ℤ
  text : String := ""

/-- One round of the loop over the levels of a side, with the check of `printer`. -/
def printStep (detailed validityCheck : Bool) (side : Side) (s : Printing) (a : Ptr) :
    Except Fault Printing := do
  let line ← b.printLevel detailed a
  let text := s.text ++ (levelHead side s.count ++ line)
  if validityCheck then do
    ASSERT
      (¬ ((side = .sell ∧ s.lastPrice ≥ (b.level a).price) ∨
        (side = .buy ∧ s.lastPrice ≤ (b.level a).price)))
      (notSortedMsg s.lastPrice (b.ordersAtPriceToString a))
    return { count := s.count + 1, lastPrice := (b.level a).price, text }
  else return { count := s.count + 1, lastPrice := s.lastPrice, text }

/-- The levels of a side. -/
def printSide (detailed validityCheck : Bool) (side : Side) : Except Fault String :=
  match b.bestOrdersByPrice side with
  | none => .ok ""
  | some best => do
    let s ← traverse (fun a => (b.level a).nextEntry) best (b.printStep detailed validityCheck side) .ok
      .diverges (b.ordersAtPricePool.size + 1) { lastPrice := startPrice side } best
    return s.text

/-- `toString` of a book. -/
def print (tickerId : ℕ) (detailed validityCheck : Bool) : Except Fault String := do
  let asks ← b.printSide detailed validityCheck .sell
  let bids ← b.printSide detailed validityCheck .buy
  return sidesText tickerId asks bids

end LimitOrderBook

/-! ## The printout of what a book lists -/

/-- The total quantity of a level. -/
def totalQty (q : List (ℕ × ℕ)) : ℕ := q.foldl (fun qty o => (qty + o.2) % 2 ^ 32) 0

/-- The texts of the orders of a level, of which ids and quantities are given. -/
def ordersText (detailed : Bool) (q : List (ℕ × ℕ)) : String :=
  (ringed q).foldl
    (fun text e => if detailed then text ++ orderText e.2.1.1 e.2.1.2 e.1.1 e.2.2.1 else text) ""

/-- The line of a level, given with its neighbours. -/
def lineText (detailed : Bool) (e : (ℤ × List (ℕ × ℕ)) × (ℤ × List (ℕ × ℕ)) × (ℤ × List (ℕ × ℕ))) :
    String :=
  levelText e.2.1.1 e.1.1 e.2.2.1 (totalQty e.2.1.2) e.2.1.2.length ++ ordersText detailed e.2.1.2 ++ "\n"

/-- The lines of some levels, the first of which has the given number. -/
def linesText (detailed : Bool) (side : Side) :
    ℕ → List ((ℤ × List (ℕ × ℕ)) × (ℤ × List (ℕ × ℕ)) × (ℤ × List (ℕ × ℕ))) → String
  | _, [] => ""
  | n, e :: es => levelHead side n ++ lineText detailed e ++ linesText detailed side (n + 1) es

/-- **The printout of what two sides list**: prices, and ids and quantities of the orders. -/
def bookText (tickerId : ℕ) (detailed : Bool) (shown : Side → List (ℤ × List (ℕ × ℕ))) : String :=
  sidesText tickerId (linesText detailed .sell 0 (ringed (shown .sell)))
    (linesText detailed .buy 0 (ringed (shown .buy)))

/-- **The prices of a side pass the check.** -/
def PricesInOrder (side : Side) (prices : List ℤ) : Prop :=
  (startPrice side :: prices).IsChain fun p q => isBetter side p q = true

/-- Prices that are sorted pass the check if all of them are behind the price that it starts with. -/
lemma pricesInOrder_iff {s : Side} (hs : s.IsBookSide) {prices : List ℤ}
    (hsorted : prices.Pairwise fun p q => isBetter s p q = true) :
    PricesInOrder s prices ↔ ∀ p ∈ prices, isBetter s (startPrice s) p = true := by
  have htrans : IsTrans ℤ fun p q => isBetter s p q = true := ⟨(priority_isBetter hs).trans⟩
  rw [PricesInOrder, List.isChain_iff_pairwise, List.pairwise_cons]
  exact and_iff_left hsorted

/-- **What printing comes to**: a text, or the end of the process if there is a check and it fails. -/
def Prints (validityCheck : Bool) (inOrder : Prop) (text : String) : Except Fault String → Prop :=
  Safe (fun f => ¬ (validityCheck = true → inOrder) ∧ ∃ msg, f = .assert msg)
    fun printed => (validityCheck = true → inOrder) ∧ printed = text

/-- What is in order can be said in another way. -/
lemma Prints.congr {validityCheck : Bool} {inOrder inOrder' : Prop} {text : String}
    {r : Except Fault String} (h : Prints validityCheck inOrder text r) (hiff : inOrder ↔ inOrder') :
    Prints validityCheck inOrder' text r := by
  rwa [propext hiff] at h

/-- Two printouts that come to the same text under the same condition. -/
lemma Prints.same {validityCheck : Bool} {inOrder : Prop} {text : String} {r r' : Except Fault String}
    (h : Prints validityCheck inOrder text r) (h' : Prints validityCheck inOrder text r') :
    (∃ text, r = .ok text ∧ r' = .ok text) ∨
      ∃ msg msg', r = .error (.assert msg) ∧ r' = .error (.assert msg') := by
  by_cases hok : validityCheck = true → inOrder
  · obtain ⟨_, hr, -, rfl⟩ := h.exists_ok_of_forall fun _ hf => hf.1 hok
    obtain ⟨_, hr', -, rfl⟩ := h'.exists_ok_of_forall fun _ hf => hf.1 hok
    exact .inl ⟨_, hr, hr'⟩
  · right
    have hfails : ∀ r, Prints validityCheck inOrder text r → ∃ msg, r = .error (.assert msg) := by
      intro r hr
      cases r with
      | ok printed => exact absurd hr.1 hok
      | error f =>
        obtain ⟨-, msg, rfl⟩ := hr
        exact ⟨msg, rfl⟩
    obtain ⟨msg, hr⟩ := hfails r h
    obtain ⟨msg', hr'⟩ := hfails r' h'
    exact ⟨msg, msg', hr, hr'⟩

/-- The prices of a side. -/
def View.prices {ω : Type} (v : View ω) (s : Side) : List ℤ := (v.side s).map Level.price

section Around

variable {ω κ : Type} {b : LimitOrderBook ω κ} {v : View ω}

/-- The neighbours of a level in its side. -/
lemma Shape.level_links {s : Side} (h : Shape b v) (hs : s.IsBookSide)
    {e : Level ω × Level ω × Level ω} (he : e ∈ ringed (v.side s)) :
    (b.level e.2.1.addr).prevEntry = some e.1.addr ∧ (b.level e.2.1.addr).nextEntry = some e.2.2.addr := by
  have hmem : (e.1.addr, e.2.1.addr, e.2.2.addr) ∈ ringed (addrs (v.side s)) := by
    rw [addrs, ringed_map]
    exact List.mem_map_of_mem (f := Prod.map Level.addr (Prod.map Level.addr Level.addr)) he
  exact (h.spine s hs).ring.ringed hmem

/-- The loop over the orders of a level. -/
lemma Represents.aroundOrders_eq [BookOrder ω κ] (h : Represents b v) {l : Level ω}
    (hl : l ∈ v.levels) (hne : l.queue ≠ []) :
    ∃ first, (b.level l.addr).firstOrder = some first ∧
      ∀ {σ : Type} (body : σ → Ptr → σ) (s : σ), b.aroundOrders body s first = .ok (l.ptrs.foldl body s) := by
  obtain ⟨s, hs, hls⟩ := View.mem_levels.mp hl
  have hat := h.shape.levelAt hls
  obtain ⟨x, q, hq⟩ := List.exists_cons_of_ne_nil hne
  have hptrs : l.ptrs = x.1 :: q.map Prod.fst := by simp [Level.ptrs, hq]
  have hnd := h.shape.ptrs_nodup hls
  have hring := hat.ring
  rw [hptrs] at hring hnd
  have hlen : l.queue.length ≤ (orders v.levels).length := by
    obtain ⟨l₁, l₂, hsplit⟩ := List.append_of_mem hl
    simp [hsplit]
    omega
  have hsize := hlen.trans h.length_le
  rw [hq, List.length_cons] at hsize
  refine ⟨x.1, by rw [hat.first, hptrs]; rfl, fun body s => ?_⟩
  unfold aroundOrders
  rw [hring.traverse_eq hnd (by rw [List.length_map]; omega), hptrs]
  exact List.foldlM_pure ..

end Around

section Shown

variable {ω κ : Type} [PrintedOrder ω]

/-- What is printed of an order. -/
def shownOrder (x : ω) : ℕ × ℕ := (PrintedOrder.orderId x, PrintedOrder.qty x)

/-- What is printed of a level. -/
def Level.shown (l : Level ω) : ℤ × List (ℕ × ℕ) := (l.price, l.queue.map fun x => shownOrder x.2)

/-- What is printed of a book. -/
def View.shown (v : View ω) (s : Side) : List (ℤ × List (ℕ × ℕ)) := mapOrders shownOrder (v.contents s)

/-- What a side shows is what its levels show. -/
lemma View.shown_eq (v : View ω) (s : Side) : v.shown s = (v.side s).map Level.shown := by
  simp only [View.shown, View.contents, mapOrders, List.map_map]
  apply List.map_congr_left
  intro l _
  simp [Level.contents, Level.shown]

variable {b : LimitOrderBook ω κ} {v : View ω} {s : Side}

/-- The texts of the orders of a level. -/
lemma LevelAt.foldl_orderText {l : Level ω} (h : LevelAt b l) (detailed : Bool) :
    l.ptrs.foldl
      (fun text p =>
        if detailed then
          text ++ orderText (PrintedOrder.orderId (b.node p).order) (PrintedOrder.qty (b.node p).order)
            (b.idAt (b.node p).prevOrder) (b.idAt (b.node p).nextOrder)
        else text) "" = ordersText detailed l.shown.2 := by
  have hshown : ringed l.shown.2 =
      (ringed l.queue).map (Prod.map (fun x => shownOrder x.2)
        (Prod.map (fun x => shownOrder x.2) fun x => shownOrder x.2)) := ringed_map ..
  have hptrs : ringed l.ptrs = (ringed l.queue).map (Prod.map Prod.fst (Prod.map Prod.fst Prod.fst)) :=
    ringed_map ..
  rw [ordersText, hshown, List.foldl_map]
  rw [foldl_eq_ringed (g := fun text e => if detailed then
      text ++ orderText (PrintedOrder.orderId (b.node e.2.1).order) (PrintedOrder.qty (b.node e.2.1).order)
        (PrintedOrder.orderId (b.node e.1).order) (PrintedOrder.orderId (b.node e.2.2).order)
      else text)]
  · rw [hptrs, List.foldl_map]
    apply List.foldl_ext
    intro text e he
    obtain ⟨h₁, h₂, h₃⟩ := mem_of_ringed he
    simp only [Prod.map_fst, Prod.map_snd, h.record _ h₁, h.record _ h₂, h.record _ h₃, shownOrder]
  · intro e he text
    obtain ⟨hprev, hnext⟩ := h.ring.ringed he
    simp only [hprev, hnext, idAt]

/-- The total quantity and the number of the orders of a level. -/
lemma LevelAt.foldl_qty {l : Level ω} (h : LevelAt b l) :
    l.ptrs.foldl
      (fun t p => ((t.1 + PrintedOrder.qty (b.node p).order) % 2 ^ 32, t.2 + 1)) (0, 0) =
      (totalQty l.shown.2, l.shown.2.length) := by
  have hrun : ∀ (q : List (Ptr × ω)) (t : ℕ × ℕ), (∀ x ∈ q, (b.node x.1).order = x.2) →
      (q.map Prod.fst).foldl
        (fun t p => ((t.1 + PrintedOrder.qty (b.node p).order) % 2 ^ 32, t.2 + 1)) t =
      ((q.map fun x => shownOrder x.2).foldl (fun qty o => (qty + o.2) % 2 ^ 32) t.1, t.2 + q.length) := by
    intro q
    induction q with
    | nil => simp
    | cons x q ih =>
      intro t hrecord
      obtain ⟨hx, hq⟩ := List.forall_mem_cons.mp hrecord
      simp only [List.map_cons, List.foldl_cons, ih _ hq, hx, shownOrder, List.length_cons]
      rw [Nat.add_right_comm, Nat.add_assoc]
  rw [Level.ptrs, hrun _ _ h.record]
  simp [totalQty, Level.shown]

/-- One round of the loop over the levels: the check compares with the level before. -/
lemma safe_printStep (detailed validityCheck : Bool) (hs : s.IsBookSide) (t : Printing) {a : Ptr}
    {line : String} (hline : b.printLevel detailed a = .ok line) :
    Safe (fun f => ¬ (validityCheck = true → isBetter s t.lastPrice (b.level a).price = true) ∧
        ∃ msg, f = .assert msg)
      (fun t' => (validityCheck = true → isBetter s t.lastPrice (b.level a).price = true) ∧
        t'.count = t.count + 1 ∧ t'.text = t.text ++ (levelHead s t.count ++ line) ∧
        (validityCheck = true → t'.lastPrice = (b.level a).price))
      (b.printStep detailed validityCheck s t a) := by
  have hcheck : ¬ ((s = .sell ∧ t.lastPrice ≥ (b.level a).price) ∨
      (s = .buy ∧ t.lastPrice ≤ (b.level a).price)) ↔ isBetter s t.lastPrice (b.level a).price = true := by
    rcases hs with rfl | rfl <;> simp [isBetter]
  unfold printStep
  rw [hline, ok_bind]
  cases validityCheck with
  | false =>
    simp only [Bool.false_eq_true, if_false, false_implies, true_and, and_true]
    exact ⟨rfl, rfl⟩
  | true =>
    simp only [if_true, forall_const, hcheck]
    exact (safe_ASSERT fun hnot => ⟨hnot, _, rfl⟩).bind fun _ hok => ⟨hok, rfl, rfl, rfl⟩

variable [BookOrder ω κ]

/-- **The printout of a level.** -/
theorem Represents.printLevel_eq (h : Represents b v) (hs : s.IsBookSide)
    (hne : ∀ l ∈ v.levels, l.queue ≠ []) (detailed : Bool) {e : Level ω × Level ω × Level ω}
    (he : e ∈ ringed (v.side s)) :
    b.printLevel detailed e.2.1.addr =
      .ok (lineText detailed (Prod.map Level.shown (Prod.map Level.shown Level.shown) e)) := by
  obtain ⟨h₁, h₂, h₃⟩ := mem_of_ringed he
  have hat := h.shape.levelAt h₂
  have hmem := View.mem_levels_of_side h₂
  obtain ⟨first, hfirst, haround⟩ := h.aroundOrders_eq hmem (hne _ hmem)
  obtain ⟨hprev, hnext⟩ := h.shape.level_links hs he
  unfold printLevel
  simp only [hfirst, hprev, hnext, deref_some, ok_bind, haround, hat.foldl_qty, hat.foldl_orderText,
    hat.price, (h.shape.levelAt h₁).price, (h.shape.levelAt h₃).price]
  rfl

/-- The loop over some levels. -/
lemma safe_foldlM_printStep (h : Represents b v) (hne : ∀ l ∈ v.levels, l.queue ≠ [])
    (hs : s.IsBookSide) (detailed validityCheck : Bool) {es : List (Level ω × Level ω × Level ω)}
    (hes : ∀ e ∈ es, e ∈ ringed (v.side s)) (t : Printing) :
    Safe (fun f => ¬ (validityCheck = true →
          (t.lastPrice :: es.map fun e => e.2.1.price).IsChain fun p q => isBetter s p q = true) ∧
        ∃ msg, f = .assert msg)
      (fun t' => (validityCheck = true →
          (t.lastPrice :: es.map fun e => e.2.1.price).IsChain fun p q => isBetter s p q = true) ∧
        t'.text = t.text ++ linesText detailed s t.count
          (es.map (Prod.map Level.shown (Prod.map Level.shown Level.shown))))
      (es.foldlM (fun t e => b.printStep detailed validityCheck s t e.2.1.addr) t) := by
  induction es generalizing t with
  | nil =>
    refine ⟨fun _ => List.isChain_singleton _, ?_⟩
    simp [linesText]
  | cons e es ih =>
    obtain ⟨he, hes⟩ := List.forall_mem_cons.mp hes
    have hprice : (b.level e.2.1.addr).price = e.2.1.price := (h.shape.levelAt (mem_of_ringed he).2.1).price
    have hstep := safe_printStep detailed validityCheck hs t (h.printLevel_eq hs hne detailed he)
    rw [hprice] at hstep
    rw [List.foldlM_cons, List.map_cons, List.isChain_cons_cons]
    refine Safe.bind (hstep.mono (fun f hf => ⟨fun hall => hf.1 fun hc => (hall hc).1, hf.2⟩)
      fun _ ht => ht) ?_
    rintro t' ⟨hfirst, hcount, htext, hlast⟩
    refine (ih hes t').mono (fun f hf => ⟨fun hall => hf.1 fun hc => ?_, hf.2⟩)
      fun t'' ht'' => ⟨fun hc => ?_, ?_⟩
    · rw [hlast hc]
      exact (hall hc).2
    · refine ⟨hfirst hc, ?_⟩
      rw [← hlast hc]
      exact ht''.1 hc
    · rw [ht''.2, htext, hcount]
      simp only [List.map_cons, linesText, String.append_assoc]

/-- **The printout of a side.**

**Proof sketch.** The loop visits the levels of the side in the order of its ring (`traverse_eq`), and
`safe_foldlM_printStep` says what it prints and when its check fails. The prices that it compares are
those of the side. -/
lemma Represents.prints_side (h : Represents b v) (hne : ∀ l ∈ v.levels, l.queue ≠ [])
    (hs : s.IsBookSide) (detailed validityCheck : Bool) :
    Prints validityCheck (PricesInOrder s (v.prices s)) (linesText detailed s 0 (ringed (v.shown s)))
      (b.printSide detailed validityCheck s) := by
  have hbest := (h.shape.spine s hs).best
  unfold printSide
  cases hv : v.side s with
  | nil =>
    rw [hv] at hbest
    rw [show b.bestOrdersByPrice s = none from hbest]
    refine ⟨fun _ => ?_, ?_⟩
    · simp [PricesInOrder, View.prices, hv]
    · simp [View.shown_eq, hv, ringed, linesText]
  | cons l ls =>
    have hring := (h.shape.spine s hs).ring
    have hnd : (addrs (v.side s)).Nodup := h.shape.heap.addr_nodup.sublist ((v.side_sublist s).map _)
    have hsize := h.shape.heap.length_le (v.side_sublist s)
    rw [hv] at hbest hring hnd hsize
    rw [show b.bestOrdersByPrice s = some l.addr from hbest]
    rw [List.length_cons] at hsize
    simp only
    rw [hring.traverse_eq hnd (by rw [List.length_map]; omega)]
    have hloop : (l.addr :: addrs ls).foldlM (b.printStep detailed validityCheck s)
        { lastPrice := startPrice s } =
        (ringed (v.side s)).foldlM (fun t e => b.printStep detailed validityCheck s t e.2.1.addr)
          { lastPrice := startPrice s } := by
      rw [← addrs_cons, ← hv, addrs, List.foldlM_map]
      exact foldlM_eq_ringed (fun t (l : Level ω) => b.printStep detailed validityCheck s t l.addr) _ _
    have hprices : (ringed (v.side s)).map (fun e => e.2.1.price) = v.prices s := by
      rw [View.prices, ← congrArg (List.map Level.price) (map_ringed (v.side s)), List.map_map]
      rfl
    have hrun := safe_foldlM_printStep h hne hs detailed validityCheck (fun _ he => he)
      { lastPrice := startPrice s }
    rw [hprices, ← ringed_map, ← View.shown_eq] at hrun
    rw [show List.map Level.addr ls = addrs ls from rfl, hloop]
    refine hrun.bind fun t ht => ⟨ht.1, ?_⟩
    rw [ht.2]
    simp

/-- **The printout of a book** is that of what it lists. With the check it ends the process exactly if
the prices of a side are not in order. -/
theorem Represents.prints (h : Represents b v) (hne : ∀ l ∈ v.levels, l.queue ≠ [])
    (tickerId : ℕ) (detailed validityCheck : Bool) :
    Prints validityCheck (∀ s : Side, s.IsBookSide → PricesInOrder s (v.prices s))
      (bookText tickerId detailed v.shown) (b.print tickerId detailed validityCheck) := by
  have hasks := h.prints_side hne (.inr rfl) detailed validityCheck
  have hbids := h.prints_side hne (.inl rfl) detailed validityCheck
  unfold print
  refine Safe.bind (hasks.mono (fun f hf => ⟨fun hall => hf.1 fun hc => hall hc _ (.inr rfl), hf.2⟩)
    fun _ ht => ht) ?_
  rintro asks ⟨haskOrder, rfl⟩
  refine Safe.bind (hbids.mono (fun f hf => ⟨fun hall => hf.1 fun hc => hall hc _ (.inl rfl), hf.2⟩)
    fun _ ht => ht) ?_
  rintro bids ⟨hbidOrder, rfl⟩
  refine ⟨fun hc s hs => ?_, rfl⟩
  rcases hs with rfl | rfl
  · exact hbidOrder hc
  · exact haskOrder hc

end Shown

/-- Two orders of 5 and 3 at 12, and one of 1 at 14. -/
example : bookText 1 true
    (fun s => if s = .sell then [(12, [(1, 5), (2, 3)]), (14, [(3, 1)])] else []) =
      "Ticker:1\nASKS L:0 =>  <px: 12 p: 14 n: 14> 12  @ 8    (2   )" ++
      "[oid:1 q:5 p:2 n:2] [oid:2 q:3 p:1 n:1] \n" ++
      "ASKS L:1 =>  <px: 14 p: 12 n: 12> 14  @ 1    (1   )[oid:3 q:1 p:3 n:3] \n" ++
      "\n                          X\n\n" := by decide +kernel

end Common
