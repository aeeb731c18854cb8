import RailNode.Proofs.Service.Queueing

/-
  What a turn of bus access does: to the search for an address (`enumeration_turn`), to the link
  (`received_turn`, `offers_turn`), to its counters, and what it puts in the queue.
-/
namespace RailNode

/-! ## Frames -/

namespace Frame

/-- The address whose owner an empty frame tells of. -/
def answer? (f : Frame) : Option BusAddress :=
  f.header?.bind fun h => if f.data.isEmpty && h.sender.isAssigned then some h.sender else none

/-- The message that a frame brings. Empty, remote and extended frames bring none. -/
def payload? (f : Frame) : Option Message :=
  f.header?.bind fun _ => if f.data.isEmpty || f.remote then none else some f.data

/-- Whether a frame brings a message from another user of an address. -/
def clashes (own : BusAddress) (f : Frame) : Bool :=
  own.isAssigned && f.payload?.isSome && f.header?.map (·.sender) == some own

end Frame

/-! ## Channels -/

namespace Channel

variable {α : Type}

/-- Sends items one after the other; those that do not fit are lost. -/
def sendAll (c : Channel α) (as : List α) : Channel α := as.foldl (fun c a => (c.send? a).getD c) c

theorem sendAll_append (c : Channel α) (as bs : List α) :
    c.sendAll (as ++ bs) = (c.sendAll as).sendAll bs := List.foldl_append

/-- What is sent stands behind what was in the channel, except what was lost. -/
theorem items_sendAll (c : Channel α) (as : List α) :
    ∃ kept, kept.Sublist as ∧ (c.sendAll as).items = c.items ++ kept := by
  induction as generalizing c with
  | nil => exact ⟨[], List.nil_sublist _, (List.append_nil _).symm⟩
  | cons a as ih =>
    obtain ⟨kept, hkept, hitems⟩ := ih ((c.send? a).getD c)
    by_cases hroom : c.items.length < c.capacity
    · refine ⟨a :: kept, hkept.cons_cons a, ?_⟩
      rw [sendAll, List.foldl_cons]
      refine hitems.trans ?_
      rw [send?, dif_pos hroom, Option.getD_some, List.append_assoc]
      rfl
    · refine ⟨kept, hkept.cons a, ?_⟩
      rw [sendAll, List.foldl_cons]
      refine hitems.trans ?_
      rw [send?, dif_neg hroom, Option.getD_none]

theorem items_send_of_hasRoom {c : Channel α} (a : α) (h : c.hasRoom = true) :
    (c.sendAll [a]).items = c.items ++ [a] := by
  have hroom : c.items.length < c.capacity := of_decide_eq_true h
  show ((c.send? a).getD c).items = _
  rw [send?, dif_pos hroom]
  rfl

theorem send_of_not_hasRoom {c : Channel α} (a : α) (h : c.hasRoom = false) :
    c.sendAll [a] = c := by
  have hroom : ¬c.items.length < c.capacity := of_decide_eq_false h
  show (c.send? a).getD c = _
  rw [send?, dif_neg hroom]
  rfl

end Channel

/-! ## Searches -/

namespace Enumeration

/-- Who asks for a search in a cycle with this action, if anybody does: an action that says so, or
    else the last conflict. -/
def asked? (a : Option Action) (e : Enumeration) : Option Bool :=
  match a with
  | some (.searchAddress forPeer) => some forPeer
  | _ => if e.required then some false else none

/-- The search that was asked for has begun, unless one was going on. Either way no other is to
    follow. -/
def opened (now : Time) (a : Option Action) (e : Enumeration) : Enumeration where
  search := e.search.or ((e.asked? a).map fun forPeer => ⟨now, [], forPeer⟩)
  required := false

/-- A frame has come in at a node with this address. -/
def afterFrame (own : BusAddress) (e : Enumeration) (f : Frame) : Enumeration where
  search := e.search.map fun s => { s with taken := f.answer?.toList ++ s.taken }
  required := e.required || f.clashes own

/-- The search has ended if its window is over. -/
def closed (now window : Time) (e : Enumeration) : Enumeration :=
  (e.finish? now window).elim e (·.2)

end Enumeration

namespace BusAccess

open Turn

variable {c : Cycle} {t : Turn BusAccess}

/-- The frame that waits for the service. -/
def waiting? (t : Turn BusAccess) : Option Frame := t.shared.link.received.items.head?

/-! ### What was asked for -/

theorem startSearch_of_search {s : AddressSearch} (now : Time) (forPeer : Bool)
    (h : t.self.enumeration.search = some s) : startSearch now forPeer t = t := by
  unfold startSearch Enumeration.start?
  rw [h]

theorem startSearch_of_none (now : Time) (forPeer : Bool)
    (h : t.self.enumeration.search = none) : startSearch now forPeer t =
      { t with
        self.enumeration.search := some ⟨now, [], forPeer⟩
        self.searches := t.self.searches + 1 }.offer (.addressRequest t.config.address) := by
  unfold startSearch Enumeration.start?
  rw [h]

theorem startRequired_of_not_required (now : Time) (h : t.self.enumeration.required = false) :
    startRequired now t = t := by
  unfold startRequired
  rw [h]
  rfl

theorem startRequired_of_required (now : Time) (h : t.self.enumeration.required = true) :
    startRequired now t =
      startSearch now false { t with self.enumeration.required := false } := by
  unfold startRequired
  rw [h]
  rfl

/-- From `t` to `t'` these frames have been offered to the link. -/
structure Offers (fs : List Frame) (t t' : Turn BusAccess) : Prop where
  frames : t'.trace.frames = t.trace.frames ++ fs
  outgoing : t'.shared.link.outgoing = t.shared.link.outgoing.sendAll fs

theorem Offers.trans {fs gs : List Frame} {t t' t'' : Turn BusAccess} (h : Offers fs t t')
    (h' : Offers gs t' t'') : Offers (fs ++ gs) t t'' where
  frames := by rw [h'.frames, h.frames, List.append_assoc]
  outgoing := by rw [h'.outgoing, h.outgoing, Channel.sendAll_append]

theorem Offers.same {t t' : Turn BusAccess} (hframes : t'.trace.offered = t.trace.offered)
    (houtgoing : t'.shared.link.outgoing = t.shared.link.outgoing) : Offers [] t t' where
  frames := by rw [Trace.frames, hframes, List.append_nil]; rfl
  outgoing := houtgoing

theorem offers_offer (f : Frame) (t : Turn BusAccess) : Offers [f] t (t.offer f) where
  frames := by
    unfold Turn.offer Trace.frames
    rw [List.map_append]
    rfl
  outgoing := by
    unfold Turn.offer Link.send? Channel.sendAll
    dsimp only [List.foldl_cons, List.foldl_nil]
    rcases t.shared.link.outgoing.send? f with _ | c <;> rfl

theorem received_offer (f : Frame) (t : Turn BusAccess) :
    (t.offer f).shared.link.received = t.shared.link.received := by
  unfold Turn.offer Link.send?
  dsimp only
  rcases t.shared.link.outgoing.send? f with _ | c <;> rfl

/-- From `t` to `t'` the service has only queued actions that are neither messages from the bus nor
    node number acknowledgements, and changed its address. -/
structure Calm (t t' : Turn BusAccess) : Prop where
  enumeration : t'.self.enumeration = t.self.enumeration
  transmitted : t'.self.transmitted = t.self.transmitted
  refused : t'.self.refused = t.self.refused
  searches : t'.self.searches = t.self.searches
  conflicts : t'.self.conflicts = t.self.conflicts
  link : t'.shared.link = t.shared.link
  offered : t'.trace.offered = t.trace.offered
  given : ∃ as, t'.given = t.given ++ as ∧
    ∀ a ∈ as, a.received? = none ∧ a.sends .nnack = false


namespace Calm

variable {t' t'' : Turn BusAccess}

theorem refl (t : Turn BusAccess) : Calm t t :=
  ⟨rfl, rfl, rfl, rfl, rfl, rfl, rfl, [], (List.append_nil _).symm, nofun⟩

theorem trans (h : Calm t t') (h' : Calm t' t'') : Calm t t'' where
  enumeration := h'.enumeration.trans h.enumeration
  transmitted := h'.transmitted.trans h.transmitted
  refused := h'.refused.trans h.refused
  searches := h'.searches.trans h.searches
  conflicts := h'.conflicts.trans h.conflicts
  link := h'.link.trans h.link
  offered := h'.offered.trans h.offered
  given := by
    obtain ⟨as, has, hnone⟩ := h.given
    obtain ⟨bs, hbs, hnone'⟩ := h'.given
    refine ⟨as ++ bs, by rw [hbs, has, List.append_assoc], fun a ha => ?_⟩
    rcases List.mem_append.1 ha with ha | ha
    · exact hnone a ha
    · exact hnone' a ha

theorem put (h : Calm t t') {a : Action} (ha : a.received? = none ∧ a.sends .nnack = false) :
    Calm t (t'.put a) :=
  h.trans ⟨rfl, rfl, rfl, rfl, rfl, rfl, rfl, [a], given_put a t', fun b hb => by
    rw [List.mem_singleton.1 hb]
    exact ha⟩

theorem reply (h : Calm t t') {o : Opcode} (args : List UInt8) (hargs : args.length ≤ 5)
    (ho : o ≠ .nnack) : Calm t (t'.reply o args hargs) := by
  refine h.put ⟨rfl, ?_⟩
  unfold Action.sends Action.transmitted?
  rw [Option.bind_some, Message.opcode?_addressed, beq_eq_false_iff_ne]
  exact fun heq => ho (Option.some.inj heq)

end Calm

theorem calm_adopt (a : BusAddress) (t : Turn BusAccess) : Calm t (adopt a t) :=
  ⟨rfl, rfl, rfl, rfl, rfl, rfl, rfl, [], (List.append_nil _).symm, nofun⟩

theorem calm_handle (m : Message) (t : Turn BusAccess) : Calm t (handle m t) := by
  unfold handle obeyAssignment
  split
  · split_ifs
    · exact (Calm.refl t).put ⟨rfl, rfl⟩
    · exact .refl t
  · split_ifs
    · split
      · exact ((calm_adopt _ t).reply _ _ (by decide)).reply _ _ (by decide)
      · exact ((Calm.refl t).reply _ _ (by decide)).reply _ _ (by decide)
    · exact .refl t
  · exact .refl t

/-! ### Until a frame is taken -/

/-- The frame of the message that is to be sent, if that is the action. -/
def messageFrame? (a : Option Action) (own : BusAddress) : Option Frame :=
  (a.bind Action.transmitted?).map (.message own)

/-- Whether a search begins. -/
def begins (c : Cycle) (t : Turn BusAccess) : Bool :=
  t.self.enumeration.search.isNone && (t.self.enumeration.asked? c.action).isSome

/-- What a turn has done before it takes a frame. It has sent the message that was to be sent; the
    enumeration is `e`, and a search has been begun if `begun` says so. -/
structure Opens (c : Cycle) (e : Enumeration) (begun : Bool) (t u : Turn BusAccess) : Prop where
  enumeration : u.self.enumeration = e
  searches : u.self.searches = if begun then t.self.searches + 1 else t.self.searches
  conflicts : u.self.conflicts = t.self.conflicts
  transmitted : u.self.transmitted =
    if (messageFrame? c.action t.config.address).isSome && t.hasRoom then t.self.transmitted + 1
    else t.self.transmitted
  refused : u.self.refused =
    if (messageFrame? c.action t.config.address).isSome && !t.hasRoom then t.self.refused + 1
    else t.self.refused
  received : u.shared.link.received = t.shared.link.received
  offers : ∃ own, Offers ((messageFrame? c.action t.config.address).toList ++
    if begun then [.addressRequest own] else []) t u
  given : ∃ as, u.given = t.given ++ as ∧ ∀ a ∈ as, a.received? = none ∧ a.sends .nnack = false

/-- Without a message to be sent. -/
theorem Calm.opens {u : Turn BusAccess} (h : Calm t u)
    (hmessage : c.action.bind Action.transmitted? = none) :
    Opens c t.self.enumeration false t u where
  enumeration := h.enumeration
  searches := h.searches
  conflicts := h.conflicts
  transmitted := by rw [messageFrame?, hmessage]; exact h.transmitted
  refused := by rw [messageFrame?, hmessage]; exact h.refused
  received := by rw [h.link]
  offers := by
    rw [messageFrame?, hmessage]
    exact ⟨.unassigned, .same h.offered (by rw [h.link])⟩
  given := h.given

theorem opens_transmit {m : Message} (hm : c.action = some (.transmit m)) :
    Opens c t.self.enumeration false t (transmit m t) := by
  have hframe : messageFrame? c.action t.config.address = some (.message t.config.address m) := by
    rw [hm]
    rfl
  have hoffers := offers_offer (.message t.config.address m) t
  have hreceived := received_offer (.message t.config.address m) t
  constructor
  case offers =>
    rw [hframe]
    refine ⟨.unassigned, hoffers.frames, hoffers.outgoing⟩
  case received => exact hreceived
  case given => exact ⟨[], (List.append_nil _).symm, nofun⟩
  all_goals
    rw [transmit, self_offerMessage]
    try rw [hframe]
    cases t.hasRoom <;> rfl

/-- A search begins. -/
theorem Opens.begin {e : Enumeration} {u : Turn BusAccess} (h : Opens c e false t u)
    (forPeer : Bool) :
    Opens c ⟨some ⟨c.now, [], forPeer⟩, false⟩ true t
      ({ u with
        self.enumeration := ⟨some ⟨c.now, [], forPeer⟩, false⟩
        self.searches := u.self.searches + 1 }.offer (.addressRequest u.config.address)) where
  enumeration := rfl
  searches := by
    rw [self_offer]
    exact congrArg (· + 1) h.searches
  conflicts := h.conflicts
  transmitted := h.transmitted
  refused := h.refused
  received := (received_offer _ _).trans h.received
  offers := by
    obtain ⟨own, hoffers⟩ := h.offers
    rw [if_neg Bool.false_ne_true, List.append_nil] at hoffers
    have hrequest := offers_offer (.addressRequest u.config.address) u
    have hboth := hoffers.trans hrequest
    exact ⟨u.config.address, hboth.frames, hboth.outgoing⟩
  given := h.given

/-- No search is required any more. -/
theorem Opens.settle {e : Enumeration} {begun : Bool} {u : Turn BusAccess}
    (h : Opens c e begun t u) :
    Opens c { e with required := false } begun t
      { u with self.enumeration.required := false } where
  enumeration := by rw [← h.enumeration]
  searches := h.searches
  conflicts := h.conflicts
  transmitted := h.transmitted
  refused := h.refused
  received := h.received
  offers := by
    obtain ⟨own, hoffers⟩ := h.offers
    exact ⟨own, hoffers.frames, hoffers.outgoing⟩
  given := h.given

/-- If the search is going on that was required, or none was required. -/
theorem startRequired_of_settled (now : Time)
    (h : t.self.enumeration.required = true → t.self.enumeration.search.isSome = true) :
    startRequired now t = { t with self.enumeration.required := false } := by
  rcases hr : t.self.enumeration.required with _ | _
  · rw [startRequired_of_not_required now hr, ← hr]
  · obtain ⟨s, hs⟩ := Option.isSome_iff_exists.1 (h hr)
    rw [startRequired_of_required now hr]
    exact startSearch_of_search (t := { t with self.enumeration.required := false }) now false hs

theorem startRequired_of_none (now : Time) (hr : t.self.enumeration.required = true)
    (hs : t.self.enumeration.search = none) : startRequired now t =
      { t with
        self.enumeration := ⟨some ⟨now, [], false⟩, false⟩
        self.searches := t.self.searches + 1 }.offer (.addressRequest t.config.address) := by
  rw [startRequired_of_required now hr]
  exact startSearch_of_none (t := { t with self.enumeration.required := false }) now false hs

/-- What is required after the action of the cycle. -/
theorem Opens.startRequired {u : Turn BusAccess}
    (h : Opens c t.self.enumeration false t u)
    (hasked : t.self.enumeration.asked? c.action =
      if t.self.enumeration.required then some false else none) :
    Opens c (t.self.enumeration.opened c.now c.action) (begins c t) t
      (BusAccess.startRequired c.now u) := by
  unfold Enumeration.opened begins
  rw [hasked]
  rcases hr : t.self.enumeration.required with _ | _
  · rw [startRequired_of_settled c.now (by rw [h.enumeration, hr]; exact nofun)]
    have hsettle := h.settle
    simpa using hsettle
  · rcases hs : t.self.enumeration.search with _ | s
    · rw [startRequired_of_none c.now (by rw [h.enumeration, hr]) (by rw [h.enumeration, hs])]
      exact h.begin false
    · rw [startRequired_of_settled c.now (by rw [h.enumeration, hs]; exact fun _ => rfl)]
      have hsettle := h.settle
      rw [hs] at hsettle
      exact hsettle

theorem opens_react (c : Cycle) (t : Turn BusAccess) :
    Opens c (t.self.enumeration.opened c.now c.action) (begins c t) t
      (BusAccess.startRequired c.now (react c t)) := by
  unfold react
  split
  · rename_i m hm
    refine (opens_transmit hm).startRequired ?_
    rw [hm]
    rfl
  · rename_i forPeer hm
    have hcalm := (Calm.refl t).opens (c := c) (by rw [hm]; rfl)
    unfold Enumeration.opened begins
    rw [hm, Enumeration.asked?]
    rcases hs : t.self.enumeration.search with _ | s
    · rw [startSearch_of_none c.now forPeer hs]
      rw [startRequired_of_settled c.now (fun _ => rfl)]
      exact (hcalm.begin forPeer).settle
    · rw [startSearch_of_search c.now forPeer hs, startRequired_of_settled c.now
        (by rw [hs]; exact fun _ => rfl)]
      have hsettle := hcalm.settle
      rw [hs] at hsettle
      exact hsettle
  · rename_i m hm
    refine ((calm_handle m t).opens ?_).startRequired ?_ <;> rw [hm] <;> rfl
  · rename_i h₁ h₂ h₃
    refine ((Calm.refl t).opens ?_).startRequired ?_
    · rcases ha : c.action with _ | a
      · rfl
      · cases a with
        | transmit m => exact absurd ha (h₁ m)
        | _ => rfl
    · rcases ha : c.action with _ | a
      · rfl
      · cases a with
        | searchAddress forPeer => exact absurd ha (h₂ forPeer)
        | _ => rfl

/-! ### The frame that is taken -/

/-- What a turn does about a frame. -/
structure Hears (f : Frame) (t u : Turn BusAccess) : Prop where
  enumeration : u.self.enumeration = t.self.enumeration.afterFrame t.config.address f
  searches : u.self.searches = t.self.searches
  conflicts : u.self.conflicts =
    if f.clashes t.config.address then t.self.conflicts + 1 else t.self.conflicts
  transmitted : u.self.transmitted = t.self.transmitted
  refused : u.self.refused = t.self.refused
  received : u.shared.link.received = t.shared.link.received
  offers : ∃ fs, Offers fs t u ∧ ∀ f ∈ fs, ∃ own, f = .addressAnswer own
  given : u.given = t.given ++ f.payload?.toList.map .received

theorem afterFrame_of_silent {f : Frame} {own : BusAddress} (e : Enumeration)
    (hanswer : f.answer? = none) : e.afterFrame own f =
      { e with required := e.required || f.clashes own } := by
  unfold Enumeration.afterFrame
  rw [hanswer]
  rcases hs : e.search with _ | s <;> rfl

theorem note_eq (e : Enumeration) (a : BusAddress) : e.note a =
    { e with
      search := e.search.map fun s =>
        { s with taken := (if a.isAssigned then some a else none).toList ++ s.taken } } := by
  unfold Enumeration.note
  rcases ha : a.isAssigned with _ | _
  · rcases hs : e.search with _ | s
    · rw [if_neg Bool.false_ne_true, Option.map_none, ← hs]
    · simp [← hs]
  · rfl

/-- A frame that nobody hears. -/
theorem hears_of_silent {f : Frame} (hanswer : f.answer? = none) (hpayload : f.payload? = none) :
    Hears f t t := by
  have hclash : f.clashes t.config.address = false := by
    rw [Frame.clashes, hpayload, Option.isSome_none, Bool.and_false, Bool.false_and]
  constructor
  case enumeration =>
    rw [afterFrame_of_silent _ hanswer, hclash, Bool.or_false]
  case conflicts => rw [hclash]; rfl
  case offers => exact ⟨[], .same rfl rfl, nofun⟩
  case given => rw [hpayload]; exact (List.append_nil _).symm
  all_goals rfl

theorem hears_handleEmpty {f : Frame} {h : Header} (hf : f.header? = some h)
    (hempty : f.data.isEmpty = true) : Hears f t (handleEmpty f.remote h.sender t) := by
  have hanswer : f.answer? = if h.sender.isAssigned then some h.sender else none := by
    rw [Frame.answer?, hf, Option.bind_some, hempty, Bool.true_and]
  have hpayload : f.payload? = none := by
    rw [Frame.payload?, hf, Option.bind_some, hempty, Bool.true_or]
    rfl
  have hclash : f.clashes t.config.address = false := by
    rw [Frame.clashes, hpayload, Option.isSome_none, Bool.and_false, Bool.false_and]
  have hnote := note_eq t.self.enumeration h.sender
  unfold handleEmpty
  dsimp only
  split_ifs
  · constructor
    case enumeration =>
      rw [self_offer, Enumeration.afterFrame, hanswer, hclash, Bool.or_false]
      exact hnote
    case conflicts => rw [hclash]; rfl
    case received => exact received_offer _ _
    case offers =>
      have hoffers := offers_offer (.addressAnswer t.config.address) t
      exact ⟨_, ⟨hoffers.frames, hoffers.outgoing⟩, fun g hg => ⟨_, List.mem_singleton.1 hg⟩⟩
    case given => rw [hpayload]; exact (List.append_nil _).symm
    all_goals rfl
  · constructor
    case enumeration =>
      rw [Enumeration.afterFrame, hanswer, hclash, Bool.or_false]
      exact hnote
    case conflicts => rw [hclash]; rfl
    case offers => exact ⟨[], .same rfl rfl, nofun⟩
    case given => rw [hpayload]; exact (List.append_nil _).symm
    all_goals rfl

theorem hears_handleData {f : Frame} {h : Header} (hf : f.header? = some h)
    (hdata : f.data.isEmpty = false) (hremote : f.remote = false) :
    Hears f t (handleData h.sender f.data t) := by
  have hanswer : f.answer? = none := by
    rw [Frame.answer?, hf, Option.bind_some, hdata, Bool.false_and]
    rfl
  have hpayload : f.payload? = some f.data := by
    rw [Frame.payload?, hf, Option.bind_some, hdata, hremote]
    rfl
  have hclash : f.clashes t.config.address =
      (t.config.address.isAssigned && decide (h.sender = t.config.address)) := by
    rw [Frame.clashes, hpayload, hf, Option.isSome_some, Bool.and_true]
    rfl
  unfold handleData
  dsimp only
  rw [← hclash]
  constructor
  case enumeration =>
    rw [self_put, afterFrame_of_silent _ hanswer]
    split_ifs with hc
    · rw [hc, Bool.or_true]
      rfl
    · rw [Bool.not_eq_true] at hc
      rw [hc, Bool.or_false]
  case offers => exact ⟨[], .same rfl rfl, nofun⟩
  case given =>
    rw [given_put, hpayload]
    rfl
  case received => rfl
  all_goals
    rw [self_put]
    split_ifs <;> rfl

theorem hears_handleFrame (f : Frame) (t : Turn BusAccess) : Hears f t (handleFrame f t) := by
  unfold handleFrame
  split
  · rename_i hf
    exact hears_of_silent (by rw [Frame.answer?, hf]; rfl) (by rw [Frame.payload?, hf]; rfl)
  · rename_i h hf
    split_ifs with hempty hremote
    · exact hears_handleEmpty hf hempty
    · rw [Bool.not_eq_true] at hempty
      refine hears_of_silent ?_ ?_
      · rw [Frame.answer?, hf, Option.bind_some, hempty]
        rfl
      · rw [Frame.payload?, hf, Option.bind_some, hremote, Bool.or_true]
        rfl
    · rw [Bool.not_eq_true] at hempty hremote
      exact hears_handleData hf hempty hremote

theorem receive_of_nil (h : t.shared.link.received.items = []) : receive t = t := by
  obtain ⟨self, ⟨config, ⟨⟨capacity, items, hle⟩, outgoing⟩, queue⟩, trace⟩ := t
  obtain rfl : items = [] := h
  rfl

theorem receive_of_cons {f : Frame} {rest : List Frame}
    (h : t.shared.link.received.items = f :: rest) : ∃ link : Link,
      receive t = handleFrame f { t with shared.link := link } ∧ link.received.items = rest ∧
        link.outgoing = t.shared.link.outgoing := by
  obtain ⟨self, ⟨config, ⟨⟨capacity, items, hle⟩, outgoing⟩, queue⟩, trace⟩ := t
  obtain rfl : items = f :: rest := h
  exact ⟨_, rfl, rfl, rfl⟩

/-- What a turn does with the frame that waits, if any. -/
structure Takes (t u : Turn BusAccess) : Prop where
  enumeration : u.self.enumeration =
    (waiting? t).elim t.self.enumeration (t.self.enumeration.afterFrame t.config.address)
  searches : u.self.searches = t.self.searches
  conflicts : u.self.conflicts =
    if (waiting? t).any (·.clashes t.config.address) then t.self.conflicts + 1
    else t.self.conflicts
  transmitted : u.self.transmitted = t.self.transmitted
  refused : u.self.refused = t.self.refused
  received : u.shared.link.received.items = t.shared.link.received.items.tail
  offers : ∃ fs, Offers fs t u ∧ ∀ f ∈ fs, ∃ own, f = .addressAnswer own
  given : u.given = t.given ++ ((waiting? t).bind Frame.payload?).toList.map .received

theorem takes_receive (t : Turn BusAccess) : Takes t (receive t) := by
  rcases hitems : t.shared.link.received.items with _ | ⟨f, rest⟩
  · have hwaiting : waiting? t = none := by rw [waiting?, hitems]; rfl
    rw [receive_of_nil hitems]
    constructor
    case received => rw [hitems]; rfl
    case offers => exact ⟨[], .same rfl rfl, nofun⟩
    case given => rw [hwaiting]; exact (List.append_nil _).symm
    all_goals first | rfl | rw [hwaiting]; rfl
  · have hwaiting : waiting? t = some f := by rw [waiting?, hitems]; rfl
    obtain ⟨link, hreceive, hrest, houtgoing⟩ := receive_of_cons hitems
    have hhears := hears_handleFrame f { t with shared.link := link }
    rw [hreceive]
    refine ⟨?_, hhears.searches, ?_, hhears.transmitted, hhears.refused, ?_, ?_, ?_⟩
    · rw [hwaiting]
      exact hhears.enumeration
    · rw [hwaiting]
      exact hhears.conflicts
    · rw [hhears.received, hitems]
      exact hrest
    · obtain ⟨fs, hoffers, hanswers⟩ := hhears.offers
      refine ⟨fs, ⟨hoffers.frames, ?_⟩, hanswers⟩
      rw [hoffers.outgoing, ← houtgoing]
    · rw [hwaiting]
      exact hhears.given

/-! ### The end of a search -/

/-- What a turn does when the window of a search is over. -/
structure Ends (c : Cycle) (t u : Turn BusAccess) : Prop where
  enumeration : u.self.enumeration = t.self.enumeration.closed c.now c.timing.searchWindow
  searches : u.self.searches = t.self.searches
  conflicts : u.self.conflicts = t.self.conflicts
  transmitted : u.self.transmitted = t.self.transmitted
  refused : u.self.refused = t.self.refused
  link : u.shared.link = t.shared.link
  offered : u.trace.offered = t.trace.offered
  config : u.config = (t.self.enumeration.finish? c.now c.timing.searchWindow).elim t.config
    fun claim => t.config.setAddress claim.1.address
  messages : u.given.filterMap Action.received? = t.given.filterMap Action.received?
  acknowledgements : u.given.countP (·.sends .nnack) = t.given.countP (·.sends .nnack) +
    if (t.self.enumeration.finish? c.now c.timing.searchWindow).any (·.1.forPeer) then 1 else 0

theorem ends_finishSearch (c : Cycle) (t : Turn BusAccess) :
    Ends c t (finishSearch c.now c.timing.searchWindow t) := by
  unfold finishSearch
  split
  · rename_i hnone
    refine ⟨?_, rfl, rfl, rfl, rfl, rfl, rfl, ?_, rfl, ?_⟩
    · rw [Enumeration.closed, hnone]
      rfl
    · rw [hnone]
      rfl
    · rw [hnone]
      rfl
  · rename_i claim e hsome
    have henumeration : e = t.self.enumeration.closed c.now c.timing.searchWindow := by
      rw [Enumeration.closed, hsome]
      rfl
    have hadopt := calm_adopt claim.address { t with self.enumeration := e }
    have hgiven : (adopt claim.address { t with self.enumeration := e }).given = t.given := rfl
    dsimp only
    split_ifs with hpeer
    · refine ⟨?_, hadopt.searches, hadopt.conflicts, hadopt.transmitted, hadopt.refused,
        hadopt.link, hadopt.offered, ?_, ?_, ?_⟩
      · rw [self_reply]
        exact hadopt.enumeration.trans henumeration
      · rw [config_reply, config_adopt, hsome]
        rfl
      · rw [given_reply, hgiven, List.filterMap_append]
        exact List.append_nil _
      · rw [given_reply, hgiven, List.countP_append, hsome, Option.any_some, hpeer,
          List.countP_singleton, Action.sends, Action.transmitted?, Option.bind_some,
          Message.opcode?_addressed]
        rfl
    · refine ⟨?_, hadopt.searches, hadopt.conflicts, hadopt.transmitted, hadopt.refused,
        hadopt.link, hadopt.offered, ?_, ?_, ?_⟩
      · exact hadopt.enumeration.trans henumeration
      · rw [config_adopt, hsome]
        rfl
      · rw [hgiven]
      · rw [Bool.not_eq_true] at hpeer
        rw [hsome, Option.any_some, hpeer, hgiven]
        rfl

/-! ### The turn -/

/-- What the enumeration is before the end of the turn: what was asked for has begun, and the frame
    that waited, if any, has come in. -/
def heard (c : Cycle) (own : BusAddress) (t : Turn BusAccess) : Enumeration :=
  (waiting? t).elim (t.self.enumeration.opened c.now c.action)
    ((t.self.enumeration.opened c.now c.action).afterFrame own)

/-- What a turn does. The address `own` is the one that it has when the frame comes in. -/
structure Acts (c : Cycle) (own : BusAddress) (t u : Turn BusAccess) : Prop where
  enumeration : u.self.enumeration = (heard c own t).closed c.now c.timing.searchWindow
  searches : u.self.searches = if begins c t then t.self.searches + 1 else t.self.searches
  conflicts : u.self.conflicts =
    if (waiting? t).any (·.clashes own) then t.self.conflicts + 1 else t.self.conflicts
  transmitted : u.self.transmitted =
    if (messageFrame? c.action t.config.address).isSome && t.hasRoom then t.self.transmitted + 1
    else t.self.transmitted
  refused : u.self.refused =
    if (messageFrame? c.action t.config.address).isSome && !t.hasRoom then t.self.refused + 1
    else t.self.refused
  received : u.shared.link.received.items = t.shared.link.received.items.tail
  offers : ∃ own fs, Offers ((messageFrame? c.action t.config.address).toList ++
    (if begins c t then [.addressRequest own] else []) ++ fs) t u ∧
      ∀ f ∈ fs, ∃ own, f = .addressAnswer own
  claims : ∀ claim e, (heard c own t).finish? c.now c.timing.searchWindow = some (claim, e) →
    ∃ d : Configuration, u.config = d.setAddress claim.address
  messages : u.given.filterMap Action.received? =
    t.given.filterMap Action.received? ++ ((waiting? t).bind Frame.payload?).toList
  acknowledgements : u.given.countP (·.sends .nnack) = t.given.countP (·.sends .nnack) +
    if ((heard c own t).finish? c.now c.timing.searchWindow).any (·.1.forPeer) then 1 else 0

/-- Actions that are neither messages from the bus nor node number acknowledgements do not count. -/
theorem messages_append (given : List Action) {as : List Action}
    (h : ∀ a ∈ as, a.received? = none ∧ a.sends .nnack = false) :
    (given ++ as).filterMap Action.received? = given.filterMap Action.received? ∧
      (given ++ as).countP (·.sends .nnack) = given.countP (·.sends .nnack) := by
  constructor
  · rw [List.filterMap_append, List.filterMap_eq_nil_iff.2 fun a ha => (h a ha).1,
      List.append_nil]
  · have hzero : as.countP (·.sends .nnack) = 0 := List.countP_eq_zero.2 fun a ha => by
      rw [(h a ha).2]
      exact Bool.false_ne_true
    rw [List.countP_append, hzero, Nat.add_zero]

theorem acts_turn (c : Cycle) (t : Turn BusAccess) : ∃ own, Acts c own t (turn c t) := by
  have hopens := opens_react c t
  unfold turn
  generalize BusAccess.startRequired c.now (react c t) = u at hopens ⊢
  have htakes := takes_receive u
  have hends := ends_finishSearch c (receive u)
  obtain ⟨own, hsent⟩ := hopens.offers
  obtain ⟨fs, hanswered, hanswers⟩ := htakes.offers
  obtain ⟨as, has, hnone⟩ := hopens.given
  obtain ⟨hmessages, hacknowledgements⟩ := messages_append t.given hnone
  have hwaiting : waiting? u = waiting? t := by
    unfold waiting?
    rw [hopens.received]
  have hheard : (receive u).self.enumeration = heard c u.config.address t := by
    rw [htakes.enumeration, hwaiting, hopens.enumeration]
    rfl
  have htaken : ∀ o : Option Message,
      (o.toList.map Action.received).countP (·.sends .nnack) = 0 := by
    rintro (_ | m) <;> rfl
  have htold : ∀ o : Option Message,
      (o.toList.map Action.received).filterMap Action.received? = o.toList := by
    rintro (_ | m) <;> rfl
  refine ⟨u.config.address, ?_, ?_, ?_, ?_, ?_, ?_, ⟨own, fs, ?_, hanswers⟩, ?_, ?_, ?_⟩
  · rw [hends.enumeration, hheard]
  · rw [hends.searches, htakes.searches, hopens.searches]
  · rw [hends.conflicts, htakes.conflicts, hwaiting, hopens.conflicts]
  · rw [hends.transmitted, htakes.transmitted, hopens.transmitted]
  · rw [hends.refused, htakes.refused, hopens.refused]
  · rw [hends.link, htakes.received, hopens.received]
  · have hquiet := Offers.same hends.offered (congrArg Link.outgoing hends.link)
    have hall := (hsent.trans hanswered).trans hquiet
    rw [List.append_nil] at hall
    exact hall
  · intro claim e hfinish
    refine ⟨(receive u).config, ?_⟩
    rw [hends.config, hheard, hfinish]
    rfl
  · rw [hends.messages, htakes.given, has, List.filterMap_append, hmessages, hwaiting, htold]
  · rw [hends.acknowledgements, htakes.given, has, List.countP_append, hacknowledgements, htaken,
      Nat.add_zero, hheard]

/-- Behind the message of the turn come requests for addresses and answers to them. -/
theorem Acts.exists_offers {own : BusAddress} {u : Turn BusAccess} (h : Acts c own t u) :
    ∃ rest, Offers ((messageFrame? c.action t.config.address).toList ++ rest) t u ∧
      ∀ f ∈ rest, ∃ a, f = .addressRequest a ∨ f = .addressAnswer a := by
  obtain ⟨own', fs, hoffers, hanswers⟩ := h.offers
  rw [List.append_assoc] at hoffers
  refine ⟨_, hoffers, fun f hf => ?_⟩
  rcases List.mem_append.1 hf with hf | hf
  · split_ifs at hf
    · exact ⟨own', Or.inl (List.mem_singleton.1 hf)⟩
    · exact absurd hf List.not_mem_nil
  · obtain ⟨a, ha⟩ := hanswers f hf
    exact ⟨a, Or.inr ha⟩

end BusAccess

end RailNode
