import Mathlib.Logic.Function.Basic
import Bliti.Library.Schedule
import Bliti.Library.Transition

/-!
# The send rate - one pacer for every session

Each session's pump takes its next payload, asks the pacer how long to hold it back, sleeps for as
long, and sends it.  A payload may go out later than it is due: a sleep may end late, and a send
waits on its client.

Main results:

- Theorem `rate_held`: what goes out within any one second.
-/

namespace Bliti.Pacing

open Transition (System)
open Schedule (Scheduled)

/-- What a device may put on the air in any one second, across every session. -/
def notifyBytesASecond : ℕ := 40 * 1024

/-- How far ahead of the pacing schedule a send may run before it waits, in nanoseconds. -/
def notifyPacingSlack : ℕ := 5 * 1000000

/-- A second, in nanoseconds. -/
def second : ℕ := 1000000000

/-- How much of the second's allowance a payload of some size spends. -/
def notifyPacing (len : ℕ) : ℕ :=
  len * second % 2 ^ 64 / notifyBytesASecond

/-- Holds the device to the send rate. -/
structure Pacer where
  nextSend : ℕ
deriving DecidableEq, Repr

/-- A pacer, as of now. -/
def Pacer.new (now : ℕ) : Pacer := { nextSend := now }

/-- How long to hold some payload bytes back before putting them on the air, if at all. -/
def Pacer.waitFor (pacer : Pacer) (now len : ℕ) : Option ℕ × Pacer :=
  let (wait, nextSend) :=
    if now ≤ pacer.nextSend then
      if notifyPacingSlack ≤ pacer.nextSend - now then (some (pacer.nextSend - now), pacer.nextSend)
      else (none, pacer.nextSend)
    -- A quiet stretch is not credit towards a later burst.
    else (none, now)
  (wait, { nextSend := nextSend + notifyPacing len })

/-! ## The pumps -/

/-- A payload's bytes, few enough for what they spend to be reckoned in 64 bits: no notification is
gigabytes long. -/
structure Chunk where
  len : ℕ
  fits : len * second < 2 ^ 64
deriving DecidableEq

/-- A payload a pump asked about: when, when it was due, its place in the schedule, and when it was
sent, if it has been. -/
structure Offer where
  pump : ℕ
  chunk : Chunk
  asked : ℕ
  due : ℕ
  place : ℕ
  sent : Option ℕ

/-- What a session's pump is at: waiting for its next payload, holding one back until an instant,
sending it, or done. -/
inductive Pump where
  | idle
  | sleeping (wake : ℕ)
  | sending
  | ended
deriving DecidableEq, Repr

/-- The pumps, the pacer they share, and the payloads asked about so far, in order of asking. -/
structure Link where
  now : ℕ
  pacer : Pacer
  pumps : ℕ → Pump
  offers : List Offer

/-- As the device begins. -/
def Link.new (now : ℕ) : Link where
  now := now
  pacer := .new now
  pumps := fun _ => .idle
  offers := []

/-- What may happen: time passes; a pump asks about its next payload, wakes, has sent it, or ends. -/
inductive Step where
  | elapsed (nanos : ℕ)
  | asks (pump : ℕ) (chunk : Chunk)
  | wakes (pump : ℕ)
  | sends (pump : ℕ)
  | ends (pump : ℕ)

/-- The payload a pump holds is sent. -/
def Offer.send (pump now : ℕ) (offer : Offer) : Offer :=
  if offer.pump = pump ∧ offer.sent = none then { offer with sent := some now } else offer

/-- A pump asks how long to hold a payload back. -/
def Link.ask (link : Link) (pump : ℕ) (chunk : Chunk) : Link :=
  let (wait, pacer) := link.pacer.waitFor link.now chunk.len
  let offer := {
    pump := pump
    chunk := chunk
    asked := link.now
    due := link.now + wait.getD 0
    place := pacer.nextSend - notifyPacing chunk.len
    sent := none }
  let doing :=
    match wait with
    | some wait => .sleeping (link.now + wait)
    | none => .sending
  { link with
    pacer := pacer
    pumps := Function.update link.pumps pump doing
    offers := link.offers ++ [offer] }

/-- What comes of it, where it can happen. -/
def Link.take (link : Link) : Step → Option Link
  | .elapsed nanos => some { link with now := link.now + nanos }
  | .asks pump chunk => if link.pumps pump = .idle then some (link.ask pump chunk) else none
  | .wakes pump =>
      match link.pumps pump with
      | .sleeping wake =>
          if wake ≤ link.now then
            some { link with pumps := Function.update link.pumps pump .sending }
          else none
      | .idle => none
      | .sending => none
      | .ended => none
  | .sends pump =>
      if link.pumps pump = .sending then
        some { link with
          pumps := Function.update link.pumps pump .idle
          offers := link.offers.map (Offer.send pump link.now) }
      else none
  | .ends pump => some { link with pumps := Function.update link.pumps pump .ended }

/-- The pumps of any sessions, in any order. -/
def pumping : System Link Step := .ofTake (fun link => ∃ now, link = .new now) Link.take

/-! ## What is sent within a second -/

/-- Whether a payload is sent within the second that begins at an instant. -/
def Offer.within (start : ℕ) (offer : Offer) : Bool :=
  match offer.sent with
  | some sent => start ≤ sent && sent < start + second
  | none => false

/-- Those sent within a second. -/
def sentWithin (start : ℕ) (offers : List Offer) : List Offer :=
  offers.filter (Offer.within start)

/-- Those of them that were due before it. -/
def late (start : ℕ) (offers : List Offer) : List Offer :=
  (sentWithin start offers).filter fun offer => offer.due < start

/-- The bytes of some payloads. -/
def bytes (offers : List Offer) : ℕ := (offers.map fun offer => offer.chunk.len).sum

/-- The length of the largest of some payloads. -/
def largest (offers : List Offer) : ℕ := (offers.map fun offer => offer.chunk.len).foldr max 0

/-- What the pacing slack allows, in bytes. -/
def slackBytes : ℕ := notifyBytesASecond * notifyPacingSlack / second

/-! ## What sending changes -/

section Send

variable (pump now : ℕ) (offer : Offer)

@[simp]
theorem Offer.send_pump : (offer.send pump now).pump = offer.pump := by
  unfold Offer.send
  split_ifs <;> rfl

@[simp]
theorem Offer.send_chunk : (offer.send pump now).chunk = offer.chunk := by
  unfold Offer.send
  split_ifs <;> rfl

@[simp]
theorem Offer.send_asked : (offer.send pump now).asked = offer.asked := by
  unfold Offer.send
  split_ifs <;> rfl

@[simp]
theorem Offer.send_due : (offer.send pump now).due = offer.due := by
  unfold Offer.send
  split_ifs <;> rfl

@[simp]
theorem Offer.send_place : (offer.send pump now).place = offer.place := by
  unfold Offer.send
  split_ifs <;> rfl

/-- When a payload is sent: before, or now where its pump held it. -/
theorem Offer.send_sent : (offer.send pump now).sent =
    if offer.pump = pump ∧ offer.sent = none then some now else offer.sent := by
  unfold Offer.send
  split_ifs <;> rfl

/-- A payload sent before stays so. -/
theorem Offer.send_of_sent {offer : Offer} {sent : ℕ} (hsent : offer.sent = some sent) :
    (offer.send pump now).sent = some sent := by
  rw [Offer.send_sent, if_neg fun hheld => ?_, hsent]
  rw [hsent] at hheld
  cases hheld.2

end Send

/-! ## What holds of every run -/

/-- A payload is placed no earlier than the schedule stands, when it is due or less than the slack
after it. -/
theorem Pacer.waitFor_spec (pacer : Pacer) (now len : ℕ) :
    let (wait, after) := pacer.waitFor now len
    let place := after.nextSend - notifyPacing len
    after.nextSend = place + notifyPacing len ∧ pacer.nextSend ≤ place ∧
      now + wait.getD 0 ≤ place ∧ place < now + wait.getD 0 + notifyPacingSlack := by
  have hslack : 0 < notifyPacingSlack := by decide
  unfold Pacer.waitFor
  dsimp only
  split_ifs with hahead hheld
  · simp only [Option.getD_some]
    omega
  · simp only [Option.getD_none]
    omega
  · simp only [Option.getD_none]
    omega

/-- The allowance a payload spends is no less than the whole nanoseconds its bytes do. -/
theorem notifyPacing_ge (chunk : Chunk) : 24414 * chunk.len ≤ notifyPacing chunk.len := by
  unfold notifyPacing
  rw [Nat.mod_eq_of_lt chunk.fits, Nat.le_div_iff_mul_le (by decide)]
  simp only [second, notifyBytesASecond]
  omega

/-- What holds of a payload that a pump holds, by what the pump is at. -/
def Pump.Holds (now due : ℕ) : Pump → Prop
  | .idle => False
  | .sleeping wake => due ≤ wake
  | .sending => due ≤ now
  | .ended => True

/-- What holds of the pumps and the payloads they asked about. -/
structure Kept (link : Link) : Prop where
  scheduled : Scheduled Offer.place (fun offer => notifyPacing offer.chunk.len) link.offers
  placed : ∀ offer ∈ link.offers, offer.asked ≤ offer.due ∧ offer.due ≤ offer.place ∧
    offer.place < offer.due + notifyPacingSlack
  nextSend : ∀ offer ∈ link.offers,
    offer.place + notifyPacing offer.chunk.len ≤ link.pacer.nextSend
  asked : ∀ offer ∈ link.offers, offer.asked ≤ link.now
  sent : ∀ offer ∈ link.offers, ∀ sent, offer.sent = some sent → offer.due ≤ sent ∧ sent ≤ link.now
  /-- A pump asks about a payload once it has sent the last. -/
  turns : link.offers.Pairwise fun a b =>
    a.pump = b.pump → ∃ sent, a.sent = some sent ∧ sent ≤ b.asked
  held : ∀ offer ∈ link.offers, offer.sent = none →
    (link.pumps offer.pump).Holds link.now offer.due

section Steps

variable {link next : Link}

/-- Time passing keeps what holds. -/
theorem Kept.elapsed (hkept : Kept link) (nanos : ℕ) :
    Kept { link with now := link.now + nanos } where
  scheduled := hkept.scheduled
  placed := hkept.placed
  nextSend := hkept.nextSend
  asked := fun offer hmem => Nat.le_add_right_of_le (hkept.asked offer hmem)
  sent := by
    intro offer hmem sent hsent
    have hbefore := hkept.sent offer hmem sent hsent
    exact ⟨hbefore.1, Nat.le_add_right_of_le hbefore.2⟩
  turns := hkept.turns
  held := by
    intro offer hmem hsent
    have hholds := hkept.held offer hmem hsent
    dsimp only
    cases hpump : link.pumps offer.pump with
    | idle => rwa [hpump] at hholds
    | sleeping wake => rwa [hpump] at hholds
    | sending =>
        rw [hpump] at hholds
        exact Nat.le_add_right_of_le hholds
    | ended => trivial

/-- A pump that moves on, still with the payload it holds or done with it, keeps what holds. -/
theorem Kept.moved (hkept : Kept link) {pump : ℕ} {doing : Pump}
    (hholds : ∀ offer ∈ link.offers, offer.pump = pump → offer.sent = none →
      doing.Holds link.now offer.due) :
    Kept { link with pumps := Function.update link.pumps pump doing } where
  scheduled := hkept.scheduled
  placed := hkept.placed
  nextSend := hkept.nextSend
  asked := hkept.asked
  sent := hkept.sent
  turns := hkept.turns
  held := by
    intro offer hmem hsent
    dsimp only
    by_cases hpump : offer.pump = pump
    · rw [hpump, Function.update_self]
      exact hholds offer hmem hpump hsent
    · rw [Function.update_of_ne hpump]
      exact hkept.held offer hmem hsent

/-- A pump asking keeps what holds. -/
theorem Kept.asks (hkept : Kept link) {pump : ℕ} {chunk : Chunk}
    (hidle : link.pumps pump = .idle) : Kept (link.ask pump chunk) := by
  have hspec := link.pacer.waitFor_spec link.now chunk.len
  unfold Link.ask
  rcases hwait : link.pacer.waitFor link.now chunk.len with ⟨wait, after⟩
  rw [hwait] at hspec
  dsimp only at hspec ⊢
  obtain ⟨hafter, hstands, hdue, hslack⟩ := hspec
  have hall : ∀ offer ∈ link.offers, offer.pump = pump → offer.sent ≠ none := by
    intro offer hmem hpump hsent
    have hholds := hkept.held offer hmem hsent
    rw [hpump, hidle] at hholds
    exact hholds
  constructor
  · exact hkept.scheduled.append fun offer hmem => (hkept.nextSend offer hmem).trans hstands
  · rw [List.forall_mem_append]
    refine ⟨hkept.placed, List.forall_mem_singleton.mpr ⟨?_, hdue, hslack⟩⟩
    exact Nat.le_add_right _ _
  · rw [List.forall_mem_append]
    refine ⟨fun offer hmem => ?_, List.forall_mem_singleton.mpr hafter.ge⟩
    have hbefore := hkept.nextSend offer hmem
    dsimp only
    omega
  · rw [List.forall_mem_append]
    exact ⟨hkept.asked, List.forall_mem_singleton.mpr (Nat.le_refl _)⟩
  · rw [List.forall_mem_append]
    exact ⟨hkept.sent, List.forall_mem_singleton.mpr fun _ hsent => nomatch hsent⟩
  · refine List.pairwise_append.mpr ⟨hkept.turns, List.pairwise_singleton _ _, ?_⟩
    intro offer hmem asking hasking hpump
    rw [List.mem_singleton.mp hasking] at hpump ⊢
    obtain ⟨sent, hsent⟩ := Option.ne_none_iff_exists'.mp (hall offer hmem hpump)
    exact ⟨sent, hsent, (hkept.sent offer hmem sent hsent).2⟩
  · rw [List.forall_mem_append]
    constructor
    · intro offer hmem hsent
      have hother : offer.pump ≠ pump := fun hpump => hall offer hmem hpump hsent
      dsimp only
      rw [Function.update_of_ne hother]
      exact hkept.held offer hmem hsent
    · refine List.forall_mem_singleton.mpr fun _ => ?_
      dsimp only
      rw [Function.update_self]
      cases wait with
      | none => exact Nat.le_refl _
      | some wait => exact Nat.le_refl _

/-- A pump having sent the payload it held keeps what holds. -/
theorem Kept.sends (hkept : Kept link) {pump : ℕ} (hsending : link.pumps pump = .sending) :
    Kept { link with
      pumps := Function.update link.pumps pump .idle
      offers := link.offers.map (Offer.send pump link.now) } := by
  constructor
  · refine List.pairwise_map.mpr (hkept.scheduled.imp fun hspaced => ?_)
    simpa using hspaced
  · rw [List.forall_mem_map]
    intro offer hmem
    simpa using hkept.placed offer hmem
  · rw [List.forall_mem_map]
    intro offer hmem
    simpa using hkept.nextSend offer hmem
  · rw [List.forall_mem_map]
    intro offer hmem
    simpa using hkept.asked offer hmem
  · rw [List.forall_mem_map]
    intro offer hmem sent hsent
    rw [Offer.send_sent] at hsent
    rw [Offer.send_due]
    split_ifs at hsent with hheld
    · obtain rfl := Option.some.inj hsent
      have hholds := hkept.held offer hmem hheld.2
      rw [hheld.1, hsending] at hholds
      exact ⟨hholds, Nat.le_refl _⟩
    · exact hkept.sent offer hmem sent hsent
  · refine List.pairwise_map.mpr (hkept.turns.imp fun {a b} hturn hpump => ?_)
    rw [Offer.send_pump, Offer.send_pump] at hpump
    obtain ⟨sent, hsent, hasked⟩ := hturn hpump
    refine ⟨sent, Offer.send_of_sent pump link.now hsent, ?_⟩
    rwa [Offer.send_asked]
  · rw [List.forall_mem_map]
    intro offer hmem hsent
    rw [Offer.send_sent] at hsent
    rw [Offer.send_pump, Offer.send_due]
    dsimp only
    split_ifs at hsent with hheld
    have hother : offer.pump ≠ pump := fun hpump => hheld ⟨hpump, hsent⟩
    rw [Function.update_of_ne hother]
    exact hkept.held offer hmem hsent

/-- Whatever happens keeps what holds. -/
theorem Kept.take (hkept : Kept link) {step : Step} (htake : link.take step = some next) :
    Kept next := by
  cases step with
  | elapsed nanos =>
      obtain rfl := Option.some.inj htake
      exact hkept.elapsed nanos
  | asks pump chunk =>
      obtain ⟨hidle, hnext⟩ := Option.ite_none_right_eq_some.mp htake
      obtain rfl := Option.some.inj hnext
      exact hkept.asks hidle
  | wakes pump =>
      rcases hpump : link.pumps pump with _ | wake | _ | _
      · simp [Link.take, hpump] at htake
      · simp only [Link.take, hpump] at htake
        obtain ⟨hwake, hnext⟩ := Option.ite_none_right_eq_some.mp htake
        obtain rfl := Option.some.inj hnext
        apply hkept.moved
        intro offer hmem howner hsent
        have hholds := hkept.held offer hmem hsent
        rw [howner, hpump] at hholds
        exact hholds.trans hwake
      · simp [Link.take, hpump] at htake
      · simp [Link.take, hpump] at htake
  | sends pump =>
      obtain ⟨hsending, hnext⟩ := Option.ite_none_right_eq_some.mp htake
      obtain rfl := Option.some.inj hnext
      exact hkept.sends hsending
  | ends pump =>
      obtain rfl := Option.some.inj htake
      exact hkept.moved fun _ _ _ _ => trivial

/-- What holds, holds of every run. -/
theorem kept_of_reachable (hreach : pumping.Reachable link) : Kept link := by
  refine hreach.invariant ?_ fun _ _ _ _ hkept hstep => hkept.take hstep
  rintro _ ⟨now, rfl⟩
  constructor
  · exact List.Pairwise.nil
  · exact fun _ hmem => nomatch hmem
  · exact fun _ hmem => nomatch hmem
  · exact fun _ hmem => nomatch hmem
  · exact fun _ hmem => nomatch hmem
  · exact List.Pairwise.nil
  · exact fun _ hmem => nomatch hmem

end Steps

/-! ## The send rate -/

/-- Those sent within a second that were not due before it. -/
def punctual (start : ℕ) (offers : List Offer) : List Offer :=
  (sentWithin start offers).filter fun offer => start ≤ offer.due

/-- What is sent within a second was due before it or was not. -/
theorem bytes_sentWithin (start : ℕ) (offers : List Offer) :
    bytes (sentWithin start offers) = bytes (punctual start offers) + bytes (late start offers) := by
  unfold punctual late
  induction sentWithin start offers with
  | nil => rfl
  | cons offer rest ih =>
      unfold bytes at ih ⊢
      by_cases hdue : start ≤ offer.due
      · simp only [List.filter_cons, hdue, Nat.not_lt.mpr hdue, decide_true, decide_false,
          if_true, Bool.false_eq_true, if_false, List.map_cons, List.sum_cons]
        omega
      · simp only [List.filter_cons, hdue, Nat.not_le.mp hdue, decide_true, decide_false,
          if_true, Bool.false_eq_true, if_false, List.map_cons, List.sum_cons]
        omega

/-- The length of each of some payloads is at most that of the largest. -/
theorem len_le_largest {offers : List Offer} {offer : Offer} (hmem : offer ∈ offers) :
    offer.chunk.len ≤ largest offers := by
  induction hmem with
  | head rest => exact Nat.le_max_left _ _
  | tail first _ ih => exact ih.trans (Nat.le_max_right _ _)

/-- What payloads spend of the allowance is no less than the whole nanoseconds their bytes do. -/
theorem bytes_le_spent (offers : List Offer) :
    24414 * bytes offers ≤ (offers.map fun offer => notifyPacing offer.chunk.len).sum := by
  induction offers with
  | nil => exact Nat.le_refl _
  | cons offer rest ih =>
      have hfirst := notifyPacing_ge offer.chunk
      unfold bytes at ih ⊢
      simp only [List.map_cons, List.sum_cons]
      omega

/-- Some payloads are the bytes of all but the last, and the last. -/
theorem bytes_le_dropLast {offers : List Offer} {most : ℕ}
    (hmost : ∀ offer ∈ offers, offer.chunk.len ≤ most) :
    bytes offers ≤ bytes offers.dropLast + most := by
  rcases List.eq_nil_or_concat offers with rfl | ⟨before, last, rfl⟩
  · exact Nat.zero_le _
  · have hlast := hmost last (by simp)
    simp only [bytes, List.concat_eq_append, List.dropLast_concat, List.map_append, List.map_cons,
      List.map_nil, List.sum_append, List.sum_cons, List.sum_nil]
    omega

theorem Offer.within_iff (start : ℕ) (offer : Offer) :
    offer.within start = true ↔
      ∃ sent, offer.sent = some sent ∧ start ≤ sent ∧ sent < start + second := by
  unfold Offer.within
  cases offer.sent with
  | none => simp
  | some sent => simp

/-- Payloads not due before a second that are sent within it are placed from its beginning until less
than the slack after its end. -/
theorem Kept.place_of_punctual {link : Link} (hkept : Kept link) {start : ℕ} {offer : Offer}
    (hmem : offer ∈ punctual start link.offers) :
    start ≤ offer.place ∧ offer.place ≤ start + (second + notifyPacingSlack - 1) := by
  obtain ⟨hsent, hdue⟩ := List.mem_filter.mp hmem
  obtain ⟨hoffer, hwithin⟩ := List.mem_filter.mp hsent
  obtain ⟨sent, hat, hfrom, huntil⟩ := (offer.within_iff start).mp hwithin
  have hbefore := (hkept.sent offer hoffer sent hat).1
  have hplaced := hkept.placed offer hoffer
  have hstart : start ≤ offer.due := of_decide_eq_true hdue
  omega

/-- The bytes of payloads sent within a second and not due before it, the last of them in the
schedule left out, are what the ceiling and the slack allow. -/
theorem Kept.bytes_dropLast_le {link : Link} (hkept : Kept link) (start : ℕ) :
    bytes (punctual start link.offers).dropLast ≤ notifyBytesASecond + slackBytes := by
  have hsublist : (punctual start link.offers).Sublist link.offers :=
    List.filter_sublist.trans List.filter_sublist
  have hspent := (hkept.scheduled.of_sublist hsublist).cost_dropLast_le
    fun offer hmem => hkept.place_of_punctual hmem
  have hbytes := bytes_le_spent (punctual start link.offers).dropLast
  have hceiling : notifyBytesASecond + slackBytes = 41164 := by decide
  have hlength : second + notifyPacingSlack - 1 = 1004999999 := by decide
  omega

/-- Each pump has at most one payload that was due before a second and is sent within it. -/
theorem Kept.late_nodup {link : Link} (hkept : Kept link) (start : ℕ) :
    ((late start link.offers).map Offer.pump).Nodup := by
  have hsublist : (late start link.offers).Sublist link.offers :=
    List.filter_sublist.trans List.filter_sublist
  refine List.pairwise_map.mpr ((hkept.turns.sublist hsublist).imp_of_mem ?_)
  intro first later hfirst hlater hturn hpump
  obtain ⟨hfirstSent, -⟩ := List.mem_filter.mp hfirst
  obtain ⟨hlaterSent, hdue⟩ := List.mem_filter.mp hlater
  obtain ⟨-, hwithin⟩ := List.mem_filter.mp hfirstSent
  obtain ⟨hoffer, -⟩ := List.mem_filter.mp hlaterSent
  obtain ⟨sent, hat, hfrom, -⟩ := (first.within_iff start).mp hwithin
  obtain ⟨asking, hasked, hturned⟩ := hturn hpump
  rw [hat] at hasked
  obtain rfl := Option.some.inj hasked
  have hplaced := (hkept.placed later hoffer).1
  have hbefore : later.due < start := of_decide_eq_true hdue
  omega

/-- Over any run, what is sent within any one second is no more than the ceiling, what the slack
allows, one payload's length, and the payloads that were due before that second and went out late,
of which each pump has at most one. -/
theorem rate_held {link : Link} (hreach : pumping.Reachable link) (start : ℕ) :
    bytes (sentWithin start link.offers) ≤
        notifyBytesASecond + slackBytes + largest (sentWithin start link.offers) +
          bytes (late start link.offers) ∧
      ((late start link.offers).map Offer.pump).Nodup := by
  have hkept := kept_of_reachable hreach
  have hmost : ∀ offer ∈ punctual start link.offers,
      offer.chunk.len ≤ largest (sentWithin start link.offers) :=
    fun offer hmem => len_le_largest (List.mem_filter.mp hmem).1
  have hallowed := hkept.bytes_dropLast_le start
  have hpunctual := bytes_le_dropLast hmost
  have hboth := bytes_sentWithin start link.offers
  exact ⟨by omega, hkept.late_nodup start⟩

/-- A notification of the largest ATT_MTU. -/
def fullChunk : Chunk := { len := 514, fits := by decide }

/-- Two pumps whose sends wait on their clients for two seconds, and one that asks again. -/
def blocking : List Step :=
  [.asks 0 fullChunk, .asks 1 fullChunk, .elapsed (2 * second), .wakes 1, .sends 0, .sends 1,
    .asks 0 fullChunk, .sends 0]

/-- What two blocked pumps send at once is counted once for each. -/
theorem rate_held_blocking : ∃ link : Link,
    (bytes (sentWithin (2 * second) link.offers), bytes (late (2 * second) link.offers)) =
        (1542, 1028) ∧
      bytes (sentWithin (2 * second) link.offers) ≤
        notifyBytesASecond + slackBytes + largest (sentWithin (2 * second) link.offers) +
          bytes (late (2 * second) link.offers) ∧
      ((late (2 * second) link.offers).map Offer.pump).Nodup := by
  have hrun : ((System.run Link.take (.new 0) blocking).map fun link =>
      (bytes (sentWithin (2 * second) link.offers), bytes (late (2 * second) link.offers))) =
        some (1542, 1028) := by decide
  obtain ⟨link, hlink, hbytes⟩ := Option.map_eq_some_iff.mp hrun
  have hstart : pumping.Reachable (.new 0) := .start ⟨0, rfl⟩
  have hreach : pumping.Reachable link := hstart.of_run (fun _ _ _ _ htake => htake) hlink
  exact ⟨link, hbytes, rate_held hreach (2 * second)⟩

/-- One pump whose first send waits on its client for ten seconds, and which then sends as fast as
it may for one. -/
def catchingUp : List Step :=
  [.asks 0 fullChunk, .elapsed (10 * second), .sends 0, .asks 0 fullChunk, .sends 0] ++
    (List.replicate 79
      [.asks 0 fullChunk, .elapsed (notifyPacing 514), .wakes 0, .sends 0]).flatten ++
    [.elapsed (second - 1 - 79 * notifyPacing 514), .asks 0 fullChunk, .sends 0]

/-- A payload sent late adds to what is sent within its second. -/
theorem not_rate_held : ¬ ∀ link start, pumping.Reachable link →
    bytes (sentWithin start link.offers) ≤
      notifyBytesASecond + slackBytes + largest (sentWithin start link.offers) := by
  intro hall
  have hrun : ((System.run Link.take (.new 0) catchingUp).map fun link =>
      (bytes (sentWithin (10 * second) link.offers),
        largest (sentWithin (10 * second) link.offers))) = some (42148, 514) := by
    decide +kernel
  obtain ⟨link, hlink, hbytes⟩ := Option.map_eq_some_iff.mp hrun
  have hstart : pumping.Reachable (.new 0) := .start ⟨0, rfl⟩
  have hreach : pumping.Reachable link := hstart.of_run (fun _ _ _ _ htake => htake) hlink
  have hheld := hall link (10 * second) hreach
  obtain ⟨hsum, hmost⟩ := Prod.mk.inj hbytes
  have hceiling : notifyBytesASecond + slackBytes = 41164 := by decide
  omega

end Bliti.Pacing
