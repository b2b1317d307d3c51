import Bliti.Network.Select.Types

/-!
# Selection - placing candidates and the hotspot

One pass over the candidates in order, each taking an interface no candidate
above it has taken, and the choice of the hotspot's radio.
-/

namespace Bliti.Network.Select

open Std (ExtTreeMap ExtTreeSet)
open Channel.Config

variable {φ : Type}

/-! ## The pass -/

/-- Where the candidates go. -/
structure Placed where
  links : ExtTreeMap String Nat
  idle : ExtTreeMap Nat State

/-- Unavailable at a stage, with no one member at fault. -/
def unavailable (reached : Stage) (reason : String) : State :=
  .unavailable { reached := reached, member := [], reason := reason }

namespace Selector

/-- Why the candidate at a rank is not to be tried, where it failed and has not
become available since. -/
def failed (s : Selector φ) (rank : Nat) : Except State Unit :=
  match s.failures[rank]? with
  | some fault => .error (.unavailable fault)
  | none => .ok ()

/-- The interface a wired candidate goes on. -/
def wired (s : Selector φ) (rank : Nat) (interface : String)
    (links : ExtTreeMap String Nat) : Except State String := do
  if interface ∉ s.carrier then
    .error (unavailable .carrier (interface ++ " has no carrier"))
  s.failed rank
  if interface ∈ links then
    .error .standby
  pure interface

/-- Whether a wireless candidate taking a radio leaves the hotspot a radio to
run on. -/
def sparesHotspot (s : Selector φ) (radio : Radio) (links : ExtTreeMap String Nat) :
    Bool :=
  match s.document.enabledHotspot with
  | none => true
  | some hotspot =>
      if radio.accessPoint != some .oneAtATime then true
      else
        (s.hardware.hotspotHosts s.document hotspot).any fun other =>
          other.station != radio.station &&
            !(other.accessPoint == some .oneAtATime && other.station ∈ links)

/-- The radios a wireless candidate is in range of, each with the signal its
network is heard at.  A hidden network is taken to be in range of every radio
the candidate may go on. -/
def hearing (s : Selector φ) (wireless : Wireless φ) : List (Radio × Option Int) :=
  (s.hardware.radiosFor wireless.interface).filterMap fun radio =>
    match s.heard[(toLex (radio.station, wireless.ssid) : Hearing)]? with
    | some signal => some (radio, some signal)
    | none => if wireless.hidden == some true then some (radio, none) else none

/-- The interface that brings up the candidate at a rank. -/
def currentInterface (s : Selector φ) (rank : Nat) : Option String :=
  (s.held.toList.find? fun entry => entry.2.link.candidate == rank).map Prod.fst

/-- Whether a signal is above another; one not heard is below every one that is. -/
def louder : Option Int → Option Int → Bool
  | some signal, some other => other < signal
  | some _, none => true
  | none, _ => false

/-- The first of the radios hearing a network best. -/
def loudest : List (Radio × Option Int) → Option (Radio × Option Int)
  | [] => none
  | first :: rest =>
      some (rest.foldl (fun best entry => if louder entry.2 best.2 then entry else best) first)

/-- Of the radios free to carry a candidate, the one it is on already, else the
first of those hearing it best. -/
def pickRadio (current : Option String) (free : List (Radio × Option Int)) :
    Except State String :=
  let best : Except State String :=
    match loudest free with
    | some (radio, _) => .ok radio.station
    | none => .error .standby
  match current with
  | some current =>
      if free.any fun (radio, _) => radio.station == current then .ok current else best
  | none => best

/-- The radio a wireless candidate goes on: the one it is on already, else the
one that hears it best. -/
def wireless (s : Selector φ) (rank : Nat) (wireless : Wireless φ)
    (links : ExtTreeMap String Nat) : Except State String := do
  let heard := s.hearing wireless
  if heard.isEmpty then
    .error (unavailable .carrier
      (match wireless.interface with
      | some interface => Text.debug wireless.ssid ++ " is out of range of " ++ interface
      | none => Text.debug wireless.ssid ++ " is out of range"))
  s.failed rank
  let free := heard.filter fun (radio, _) =>
    radio.station ∉ links && s.sparesHotspot radio links
  pickRadio (s.currentInterface rank) free

/-- Where one enabled candidate goes beside those above it. -/
def goesOn (s : Selector φ) (rank : Nat) (attachment : Attachment φ)
    (links : ExtTreeMap String Nat) : Except State String :=
  match attachment.kind with
  | .wiredDynamic interface => s.wired rank interface links
  | .wiredStatic interface _ _ => s.wired rank interface links
  | .wireless w => s.wireless rank w links

/-- One turn of the pass: the candidate at a rank. -/
def placeOne (s : Selector φ) (placed : Placed) : Attachment φ × Nat → Placed
  | (attachment, rank) =>
      if !attachment.enabled then
        { placed with idle := placed.idle.insert rank .off }
      else
        match s.goesOn rank attachment placed.links with
        | .ok interface => { placed with links := placed.links.insert interface rank }
        | .error state => { placed with idle := placed.idle.insert rank state }

/-- Place each candidate in order on an interface carrying none above it. -/
def place (s : Selector φ) : Placed :=
  s.document.attachments.zipIdx.foldl s.placeOne { links := ∅, idle := ∅ }

/-! ## The hotspot -/

/-- The channel the wireless client on a radio is associated on, once it is. -/
def associated (s : Selector φ) (radio : String) : Option Render.Channel := do
  let held ← s.held[radio]?
  if held.atStage.any fun stage => stage ≤ .association then none
  else s.channels[radio]?

/-- How good a radio is for the hotspot, least best, where it can run it. -/
def tier (s : Selector φ) (radio : Radio) : Option Nat :=
  match radio.accessPoint with
  | none => none
  | some alongside =>
      match s.held.contains radio.station, alongside with
      | false, _ => some 0
      | true, .independent => some 1
      | true, .sharedChannel => some 2
      | true, .oneAtATime => none

/-- The hotspot goes on the best of its hosts, and stays where it is among the
best of those. -/
def placeHotspot (s : Selector φ) : Option Placement := do
  let hotspot ← s.document.enabledHotspot
  let current := s.decision.hotspot.map (·.radio)
  let options := (s.hardware.hotspotHosts s.document hotspot).filterMap fun radio =>
    (s.tier radio).map fun tier => (radio, tier)
  let best ← (options.map Prod.snd).min?
  let among := (options.filter fun (_, tier) => tier == best).map Prod.fst
  let first ← among.head?
  let radio := (among.find? fun radio => some radio.station == current).getD first
  let channel :=
    match s.held[radio.station]? with
    | some held =>
        if radio.accessPoint == some .sharedChannel then
          .follows held.link.candidate (s.associated radio.station)
        else .own
    | none => .own
  pure { radio := radio.station, channel := channel }

/-! ## What one candidate may do -/

/-- The interfaces a candidate may be brought up on as things stand: its own
wired interface with carrier, or a radio it may go on that hears its network,
or any such radio where the network is hidden. -/
def MayUse (s : Selector φ) (attachment : Attachment φ) (interface : String) : Prop :=
  match attachment.kind with
  | .wiredDynamic own => interface = own ∧ own ∈ s.carrier
  | .wiredStatic own _ _ => interface = own ∧ own ∈ s.carrier
  | .wireless w =>
      (∃ radio ∈ s.hardware.radios, radio.station = interface) ∧
      (∀ pin, w.interface = some pin → interface = pin) ∧
      ((toLex (interface, w.ssid) : Hearing) ∈ s.heard ∨ w.hidden = some true)

/-- A candidate is available where it may be brought up on some interface. -/
def Available (s : Selector φ) (attachment : Attachment φ) : Prop :=
  ∃ interface, s.MayUse attachment interface

/-- Why a candidate goes nowhere, with the state it is left in. -/
inductive IdleAs (s : Selector φ) (rank : Nat) (attachment : Attachment φ) : State → Prop
  | off (hoff : attachment.enabled = false) : IdleAs s rank attachment .off
  | outOfReach (reason : String) (hon : attachment.enabled = true)
      (hout : ¬ s.Available attachment) :
      IdleAs s rank attachment (unavailable .carrier reason)
  | failed (fault : Fault) (hon : attachment.enabled = true)
      (havailable : s.Available attachment) (hfault : s.failures[rank]? = some fault) :
      IdleAs s rank attachment (.unavailable fault)
  | standby (hon : attachment.enabled = true) (havailable : s.Available attachment)
      (hfault : s.failures[rank]? = none) : IdleAs s rank attachment .standby

/-- The answers a placing function may give for an enabled candidate. -/
def GoesOnSpec (s : Selector φ) (rank : Nat) (attachment : Attachment φ)
    (links : ExtTreeMap String Nat) : Except State String → Prop
  | .ok interface =>
      s.MayUse attachment interface ∧ s.failures[rank]? = none ∧ interface ∉ links
  | .error state => s.IdleAs rank attachment state

/-- A wired candidate goes on its own interface or nowhere. -/
theorem wired_spec (s : Selector φ) {rank : Nat} {attachment : Attachment φ}
    {own : String} {links : ExtTreeMap String Nat} (hon : attachment.enabled = true)
    (hmay : ∀ interface, s.MayUse attachment interface ↔
      interface = own ∧ own ∈ s.carrier) :
    s.GoesOnSpec rank attachment links (s.wired rank own links) := by
  have havailable : s.Available attachment ↔ own ∈ s.carrier := by
    simp [Available, hmay]
  unfold wired
  by_cases hcarrier : own ∈ s.carrier
  · rcases hfault : s.failures[rank]? with _ | fault
    · by_cases htaken : own ∈ links
      · simpa [hcarrier, failed, hfault, htaken, bind, Except.bind, GoesOnSpec] using
          IdleAs.standby hon (havailable.mpr hcarrier) hfault
      · simp [hcarrier, failed, hfault, htaken, bind, Except.bind, pure, Except.pure,
          GoesOnSpec, hmay]
    · simpa [hcarrier, failed, hfault, bind, Except.bind, GoesOnSpec] using
        IdleAs.failed fault hon (havailable.mpr hcarrier) hfault
  · have hout : ¬ s.Available attachment := fun h => hcarrier (havailable.mp h)
    have hidle : s.IdleAs rank attachment (unavailable .carrier (own ++ " has no carrier")) :=
      .outOfReach _ hon hout
    simpa [hcarrier, bind, Except.bind, GoesOnSpec] using hidle

/-- A radio a wireless candidate is in range of is one the candidate may use. -/
theorem mem_hearing_iff (s : Selector φ) {attachment : Attachment φ} {w : Wireless φ}
    (hkind : attachment.kind = .wireless w) (interface : String) :
    (∃ entry ∈ s.hearing w, entry.1.station = interface) ↔
      s.MayUse attachment interface := by
  simp only [MayUse, hkind, hearing, Hardware.radiosFor, List.mem_filterMap,
    List.mem_filter]
  constructor
  · rintro ⟨⟨radio, signal⟩, ⟨other, ⟨hradio, hpin⟩, hentry⟩, rfl⟩
    have hsame : other = radio ∧
        ((toLex (radio.station, w.ssid) : Hearing) ∈ s.heard ∨ w.hidden = some true) := by
      split at hentry
      · rename_i heard hheard
        obtain ⟨rfl, -⟩ := Prod.mk.inj (Option.some.inj hentry)
        exact ⟨rfl, .inl (ExtTreeMap.mem_iff_isSome_getElem?.mpr (by simp [hheard]))⟩
      · split at hentry
        · rename_i hhidden
          obtain ⟨rfl, -⟩ := Prod.mk.inj (Option.some.inj hentry)
          exact ⟨rfl, .inr (by simpa using hhidden)⟩
        · cases hentry
    obtain ⟨rfl, hheard⟩ := hsame
    refine ⟨⟨other, hradio, rfl⟩, ?_, hheard⟩
    intro pin hwants
    simpa [hwants] using hpin
  · rintro ⟨⟨radio, hradio, rfl⟩, hpin, hheard⟩
    have hfor : (w.interface.all fun name => radio.station == name) = true := by
      rcases hwants : w.interface with _ | pin
      · rfl
      · simpa using hpin pin hwants
    rcases hsignal : s.heard[(toLex (radio.station, w.ssid) : Hearing)]? with _ | signal
    · have hhidden : w.hidden = some true := by
        refine hheard.resolve_left fun hmem => ?_
        simp [ExtTreeMap.mem_iff_isSome_getElem?, hsignal] at hmem
      exact ⟨(radio, none), ⟨radio, ⟨hradio, hfor⟩, by simp [hsignal, hhidden]⟩, rfl⟩
    · exact ⟨(radio, some signal), ⟨radio, ⟨hradio, hfor⟩, by simp [hsignal]⟩,
        rfl⟩

/-- The loudest radio is one of those heard. -/
theorem mem_of_loudest {heard : List (Radio × Option Int)} {entry : Radio × Option Int}
    (hloudest : loudest heard = some entry) : entry ∈ heard := by
  rcases heard with _ | ⟨first, rest⟩
  · cases hloudest
  · obtain rfl := Option.some.inj hloudest
    refine Loops.foldl_invariant_of_prefix _ rest
      (fun taken best => best ∈ first :: taken) first (by simp) ?_
    intro taken next later best _ hbest
    split
    · simp
    · rcases List.mem_cons.mp hbest with rfl | hbefore
      · simp
      · simp [hbefore]

/-- The radio picked is one of the free ones. -/
theorem pickRadio_ok {current : Option String} {free : List (Radio × Option Int)}
    {interface : String} (hpick : pickRadio current free = .ok interface) :
    ∃ entry ∈ free, entry.1.station = interface := by
  have hbest : ∀ answer, (match loudest free with
      | some (radio, _) => (.ok radio.station : Except State String)
      | none => .error .standby) = .ok answer →
      ∃ entry ∈ free, entry.1.station = answer := by
    intro answer hanswer
    rcases hmax : loudest free with _ | ⟨radio, signal⟩
    · simp [hmax] at hanswer
    · simp only [hmax, Except.ok.injEq] at hanswer
      exact ⟨(radio, signal), mem_of_loudest hmax, hanswer⟩
  unfold pickRadio at hpick
  rcases current with _ | current
  · exact hbest interface hpick
  · by_cases hstays : (free.any fun entry => entry.1.station == current) = true
    · simp only [hstays, if_true, Except.ok.injEq] at hpick
      subst hpick
      simpa using hstays
    · simp only [hstays] at hpick
      exact hbest interface hpick

/-- Where no radio is picked, the candidate stands by. -/
theorem pickRadio_error {current : Option String} {free : List (Radio × Option Int)}
    {state : State} (hpick : pickRadio current free = .error state) :
    state = .standby := by
  unfold pickRadio at hpick
  grind

/-- A wireless candidate goes on a radio it may use, or nowhere. -/
theorem wireless_spec (s : Selector φ) {rank : Nat} {attachment : Attachment φ}
    {w : Wireless φ} {links : ExtTreeMap String Nat} (hon : attachment.enabled = true)
    (hkind : attachment.kind = .wireless w) :
    s.GoesOnSpec rank attachment links (s.wireless rank w links) := by
  have hmay := s.mem_hearing_iff hkind
  unfold wireless
  rcases hheard : s.hearing w with _ | ⟨first, rest⟩
  · have hout : ¬ s.Available attachment := by
      rintro ⟨interface, huse⟩
      simpa [hheard] using (hmay interface).mpr huse
    simpa [hheard, bind, Except.bind, GoesOnSpec] using IdleAs.outOfReach _ hon hout
  · have havailable : s.Available attachment :=
      ⟨first.1.station, (hmay _).mp ⟨first, by simp [hheard], rfl⟩⟩
    rcases hfault : s.failures[rank]? with _ | fault
    · simp only [failed, hfault, bind, Except.bind, List.isEmpty_cons, Bool.false_eq_true,
        if_false]
      rcases hpick : pickRadio (s.currentInterface rank) _ with state | interface
      · rw [pickRadio_error hpick]
        exact IdleAs.standby hon havailable hfault
      · obtain ⟨entry, hentry, rfl⟩ := pickRadio_ok hpick
        rw [← hheard, List.mem_filter] at hentry
        refine ⟨(hmay _).mp ⟨entry, hentry.1, rfl⟩, hfault, ?_⟩
        simpa using (Bool.and_eq_true_iff.mp hentry.2).1
    · simpa [hheard, failed, hfault, bind, Except.bind, GoesOnSpec] using
        IdleAs.failed fault hon havailable hfault

/-- An enabled candidate goes on a free interface it may use, or is left idle
for the reason it goes nowhere. -/
theorem goesOn_spec (s : Selector φ) {rank : Nat} {attachment : Attachment φ}
    {links : ExtTreeMap String Nat} (hon : attachment.enabled = true) :
    s.GoesOnSpec rank attachment links (s.goesOn rank attachment links) := by
  unfold goesOn
  rcases hkind : attachment.kind with w | own | ⟨own, addresses, gateway⟩
  · exact s.wireless_spec hon hkind
  · exact s.wired_spec hon (fun interface => by simp [MayUse, hkind])
  · exact s.wired_spec hon (fun interface => by simp [MayUse, hkind])

/-! ## The invariant of the pass -/

/-- A candidate an interface brings up: it is turned on, has not failed and may
be brought up there. -/
def MayLink (s : Selector φ) (rank : Nat) (interface : String) : Prop :=
  ∃ attachment, s.document.attachments[rank]? = some attachment ∧
    attachment.enabled = true ∧ s.failures[rank]? = none ∧
    s.MayUse attachment interface

/-- What the pass has done once the ranks below `n` are taken: each is on
exactly one interface or idle, and never both. -/
structure PlacedUpTo (s : Selector φ) (n : Nat) (placed : Placed) : Prop where
  mayLink : ∀ (interface : String) (rank : Nat),
    placed.links[interface]? = some rank → s.MayLink rank interface
  below : ∀ (interface : String) (rank : Nat),
    placed.links[interface]? = some rank → rank < n
  injective : ∀ (interface other : String) (rank : Nat),
    placed.links[interface]? = some rank → placed.links[other]? = some rank → interface = other
  idle_iff : ∀ rank, rank ∈ placed.idle ↔
    rank < n ∧ ∀ interface : String, placed.links[interface]? ≠ some rank
  idleAs : ∀ (rank : Nat) (state : State), placed.idle[rank]? = some state →
    ∃ attachment, s.document.attachments[rank]? = some attachment ∧
      s.IdleAs rank attachment state

/-- Nothing is placed before the pass. -/
theorem PlacedUpTo.start (s : Selector φ) : s.PlacedUpTo 0 { links := ∅, idle := ∅ } where
  mayLink := by simp
  below := by simp
  injective := by simp
  idle_iff := by simp
  idleAs := by simp

/-- A candidate that goes on a free interface keeps the invariant. -/
theorem PlacedUpTo.link {s : Selector φ} {n : Nat} {placed : Placed} {interface : String}
    (hplaced : s.PlacedUpTo n placed) (hmay : s.MayLink n interface)
    (hfree : interface ∉ placed.links) :
    s.PlacedUpTo (n + 1) { placed with links := placed.links.insert interface n } := by
  have hnew : ∀ (other : String) (rank : Nat),
      (placed.links.insert interface n)[other]? = some rank →
      (other = interface ∧ rank = n) ∨ placed.links[other]? = some rank := by
    intro other rank hlink
    rw [OrderedMap.getElem?_insert_ite] at hlink
    split at hlink
    · rename_i hsame
      exact .inl ⟨hsame.symm, (Option.some.inj hlink).symm⟩
    · exact .inr hlink
  have hnone : placed.links[interface]? = none := by simpa using hfree
  constructor
  · intro other rank hlink
    rcases hnew other rank hlink with ⟨rfl, rfl⟩ | hlink
    · exact hmay
    · exact hplaced.mayLink other rank hlink
  · intro other rank hlink
    rcases hnew other rank hlink with ⟨-, rfl⟩ | hlink
    · omega
    · exact Nat.lt_succ_of_lt (hplaced.below other rank hlink)
  · intro first second rank hfirst hsecond
    rcases hnew first rank hfirst with ⟨rfl, rfl⟩ | hfirst'
    · rcases hnew second rank hsecond with ⟨rfl, -⟩ | hsecond'
      · rfl
      · exact absurd (hplaced.below second rank hsecond') (Nat.lt_irrefl _)
    · rcases hnew second rank hsecond with ⟨rfl, rfl⟩ | hsecond'
      · exact absurd (hplaced.below first rank hfirst') (Nat.lt_irrefl _)
      · exact hplaced.injective first second rank hfirst' hsecond'
  · intro rank
    rw [hplaced.idle_iff]
    constructor
    · rintro ⟨hlt, hidle⟩
      refine ⟨Nat.lt_succ_of_lt hlt, fun other hlink => ?_⟩
      rcases hnew other rank hlink with ⟨-, rfl⟩ | hlink
      · exact Nat.lt_irrefl _ hlt
      · exact hidle other hlink
    · rintro ⟨hlt, hidle⟩
      have hne : rank ≠ n := by
        rintro rfl
        exact hidle interface (by simp)
      refine ⟨by omega, fun other hlink => ?_⟩
      by_cases hother : other = interface
      · rw [hother, hnone] at hlink
        cases hlink
      · exact hidle other (by
          rw [OrderedMap.getElem?_insert_of_ne (Ne.symm hother), hlink])
  · exact hplaced.idleAs

/-- A candidate that goes nowhere keeps the invariant. -/
theorem PlacedUpTo.leave {s : Selector φ} {n : Nat} {placed : Placed}
    {attachment : Attachment φ} {state : State} (hplaced : s.PlacedUpTo n placed)
    (hat : s.document.attachments[n]? = some attachment)
    (hidle : s.IdleAs n attachment state) :
    s.PlacedUpTo (n + 1) { placed with idle := placed.idle.insert n state } where
  mayLink := hplaced.mayLink
  below := fun interface rank hlink => Nat.lt_succ_of_lt (hplaced.below interface rank hlink)
  injective := hplaced.injective
  idle_iff := by
    intro rank
    rw [OrderedMap.mem_insert_iff, hplaced.idle_iff]
    constructor
    · rintro (rfl | ⟨hlt, hnot⟩)
      · refine ⟨Nat.lt_succ_self _, fun interface hlink => ?_⟩
        exact Nat.lt_irrefl _ (hplaced.below interface _ hlink)
      · exact ⟨Nat.lt_succ_of_lt hlt, hnot⟩
    · rintro ⟨hlt, hnot⟩
      by_cases hlast : n = rank
      · exact .inl hlast
      · exact .inr ⟨by omega, hnot⟩
  idleAs := by
    intro rank left hleft
    rw [OrderedMap.getElem?_insert_ite] at hleft
    split at hleft
    · rename_i hsame
      subst hsame
      obtain rfl := Option.some.inj hleft
      exact ⟨attachment, hat, hidle⟩
    · exact hplaced.idleAs rank left hleft

/-- One turn of the pass keeps the invariant. -/
theorem PlacedUpTo.placeOne {s : Selector φ} {n : Nat} {placed : Placed}
    {attachment : Attachment φ} (hplaced : s.PlacedUpTo n placed)
    (hat : s.document.attachments[n]? = some attachment) :
    s.PlacedUpTo (n + 1) (s.placeOne placed (attachment, n)) := by
  unfold Selector.placeOne
  by_cases hon : attachment.enabled = true
  · have hspec : s.GoesOnSpec n attachment placed.links _ := s.goesOn_spec hon
    rcases hgoes : s.goesOn n attachment placed.links with state | interface
    · rw [hgoes] at hspec
      simpa [hon, hgoes] using hplaced.leave hat hspec
    · rw [hgoes] at hspec
      obtain ⟨hmay, hfault, hfree⟩ := hspec
      simpa [hon, hgoes] using hplaced.link ⟨attachment, hat, hon, hfault, hmay⟩ hfree
  · have hoff : attachment.enabled = false := by simpa using hon
    simpa [hoff] using hplaced.leave hat (.off hoff)

/-- The pass takes every rank of the document. -/
theorem place_spec (s : Selector φ) :
    s.PlacedUpTo s.document.attachments.length s.place :=
  Loops.foldl_invariant_of_zipIdx s.placeOne s.document.attachments s.PlacedUpTo _
    (PlacedUpTo.start s) (fun _ _ _ hat hplaced => hplaced.placeOne hat)

end Selector

end Bliti.Network.Select
