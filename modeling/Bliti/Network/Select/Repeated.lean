import Bliti.Channel.Config.Equal
import Bliti.Network.Select.Hosting

/-!
# Selection - selecting again from what was selected

Selecting is a greedy pass whose choices turn on its own last outcome: a candidate and the
hotspot stay where they are, and a radio keeps its client's channel.  Selecting again with
nothing observed in between comes to the same selector.
-/

namespace Bliti.Network.Select

open Std (ExtTreeMap ExtTreeSet)
open Channel.Config

variable {φ : Type}

namespace Selector

/-! ## The candidates -/

/-- The interface of a candidate is the one holding it, where none is held twice. -/
theorem currentInterface_eq_some {s : Selector φ}
    (honce : ∀ (interface other : String) (h h' : Held), s.held[interface]? = some h →
      s.held[other]? = some h' → h.link.candidate = h'.link.candidate → interface = other)
    {rank : Nat} {interface : String} :
    s.currentInterface rank = some interface ↔
      s.held[interface]?.map (·.link.candidate) = some rank := by
  unfold currentInterface
  rw [Option.map_eq_some_iff, Option.map_eq_some_iff]
  constructor
  · rintro ⟨⟨i, h⟩, hfound, rfl⟩
    have hheld : s.held[i]? = some h := by simpa using List.mem_of_find?_eq_some hfound
    exact ⟨h, hheld, by simpa using List.find?_some hfound⟩
  · rintro ⟨h, hheld, hrank⟩
    have hmem : (interface, h) ∈ s.held.toList := by simpa using hheld
    rcases hfound : s.held.toList.find? fun entry => entry.2.link.candidate == rank with
      _ | ⟨other, h'⟩
    · simpa [hrank] using List.find?_eq_none.mp hfound _ hmem
    · have hheld' : s.held[other]? = some h' := by
        simpa using List.mem_of_find?_eq_some hfound
      have hrank' : h'.link.candidate = rank := by simpa using List.find?_some hfound
      have hsame := honce other interface h' h hheld' hheld (hrank'.trans hrank.symm)
      exact ⟨(other, h'), hfound, hsame⟩

/-- A selector that has selected finds each candidate on the interface it was placed on. -/
theorem currentInterface_settle (t : Selector φ) {rank : Nat} {interface : String} :
    t.settle.1.currentInterface rank = some interface ↔
      t.place.links[interface]? = some rank := by
  have hcandidate : ∀ i : String,
      t.settle.1.held[i]?.map (·.link.candidate) = t.place.links[i]? :=
    t.hold_candidate t.place.links
  rw [currentInterface_eq_some, hcandidate]
  intro i j h h' hi hj hsame
  have hfirst := hcandidate i
  have hsecond := hcandidate j
  rw [hi] at hfirst
  rw [hj] at hsecond
  refine t.place_spec.injective i j h.link.candidate hfirst.symm ?_
  rw [hsame]
  exact hsecond.symm

/-- A radio picked is picked again for a candidate that is on it. -/
theorem pickRadio_stays {current : Option String} {free : List (Radio × Option Int)}
    {interface : String} (hpick : pickRadio current free = .ok interface) :
    pickRadio (some interface) free = .ok interface := by
  obtain ⟨entry, hentry, hstation⟩ := pickRadio_ok hpick
  have hfree : (free.any fun entry => entry.1.station == interface) = true :=
    List.any_eq_true.mpr ⟨entry, hentry, by simp [hstation]⟩
  simp only [pickRadio, hfree, if_true]

/-- Where no radio is picked, none is for a candidate that is on none. -/
theorem pickRadio_none {current : Option String} {free : List (Radio × Option Int)}
    {state : State} (hpick : pickRadio current free = .error state) :
    pickRadio none free = .error state := by
  unfold pickRadio at hpick ⊢
  rcases current with _ | current
  · exact hpick
  · dsimp only at hpick ⊢
    split at hpick
    · cases hpick
    · exact hpick

/-- A radio is picked again where the candidate is on the one picked, or on none. -/
theorem pickRadio_again {current current' : Option String}
    {free : List (Radio × Option Int)}
    (hcurrent : ∀ interface, current' = some interface ↔
      pickRadio current free = .ok interface) :
    pickRadio current' free = pickRadio current free := by
  rcases hpick : pickRadio current free with state | interface
  · have hnone : current' = none := by
      refine Option.eq_none_iff_forall_ne_some.mpr fun interface hsome => ?_
      have hok := (hcurrent interface).mp hsome
      rw [hpick] at hok
      cases hok
    rw [hnone, pickRadio_none hpick]
  · rw [(hcurrent interface).mpr hpick, pickRadio_stays hpick]

/-- A candidate goes where it went, where the selector that selected has it there. -/
theorem goesOn_settle (t : Selector φ) {rank : Nat} {attachment : Attachment φ}
    {links : ExtTreeMap String Nat}
    (hcurrent : ∀ interface, t.settle.1.currentInterface rank = some interface ↔
      t.goesOn rank attachment links = .ok interface) :
    t.settle.1.goesOn rank attachment links = t.goesOn rank attachment links := by
  rcases hkind : attachment.kind with w | own | ⟨own, addresses, gateway⟩
  · simp only [goesOn, hkind, wireless] at hcurrent ⊢
    -- all but the current radio is read from what selecting keeps
    change (if (t.hearing w).isEmpty = true then _ else _) = _
    split
    · rfl
    · rename_i hheard
      rw [if_neg hheard] at hcurrent
      change (t.failed rank >>= fun _ => _) = _
      rcases hfailed : t.failed rank with state | _
      · rfl
      · rw [hfailed] at hcurrent
        exact pickRadio_again hcurrent
  · simp only [goesOn, hkind]
    rfl
  · simp only [goesOn, hkind]
    rfl

/-! ## The pass -/

/-- A turn of the pass leaves the ranks before it where they are. -/
theorem placeOne_links_lt (t : Selector φ) {n : Nat} {placed : Placed}
    {attachment : Attachment φ} {rank : Nat} (hrank : rank < n) (interface : String) :
    (t.placeOne placed (attachment, n)).links[interface]? = some rank ↔
      placed.links[interface]? = some rank := by
  unfold placeOne
  by_cases hon : attachment.enabled = true
  · have hspec : t.GoesOnSpec n attachment placed.links _ := t.goesOn_spec hon
    rcases hgoes : t.goesOn n attachment placed.links with state | other
    · simp [hon, hgoes]
    · rw [hgoes] at hspec
      have hfree : placed.links[other]? = none := by simpa using hspec.2.2
      simp only [hon, hgoes, Bool.not_true, Bool.false_eq_true, if_false,
        OrderedMap.getElem?_insert_ite]
      by_cases hsame : other = interface
      · rw [if_pos hsame, ← hsame, hfree]
        have hne : n ≠ rank := Nat.ne_of_gt hrank
        simp [hne]
      · rw [if_neg hsame]
  · simp [hon]

/-- A turn of the pass puts its rank where the candidate goes. -/
theorem placeOne_links_self (t : Selector φ) {n : Nat} {placed : Placed}
    {attachment : Attachment φ} (hplaced : t.PlacedUpTo n placed)
    (hon : attachment.enabled = true) (interface : String) :
    (t.placeOne placed (attachment, n)).links[interface]? = some n ↔
      t.goesOn n attachment placed.links = .ok interface := by
  have hbefore : ∀ other : String, placed.links[other]? ≠ some n := fun other hlink =>
    absurd (hplaced.below other n hlink) (Nat.lt_irrefl n)
  unfold placeOne
  rcases hgoes : t.goesOn n attachment placed.links with state | other
  · simp [hon, hgoes, hbefore]
  · simp only [hon, hgoes, Bool.not_true, Bool.false_eq_true, if_false,
      OrderedMap.getElem?_insert_ite, Except.ok.injEq]
    by_cases hsame : other = interface
    · simp [hsame]
    · simp [hsame, hbefore]

/-- The pass places every candidate where it was placed, as seen from the selector that
selected. -/
theorem place_settle (t : Selector φ) : t.settle.1.place = t.place := by
  refine Loops.foldl_eq_of_outcome t.placeOne t.settle.1.placeOne t.document.attachments
    t.PlacedUpTo
    (fun n placed => ∀ (interface : String) (rank : Nat), rank < n →
      (t.place.links[interface]? = some rank ↔ placed.links[interface]? = some rank))
    _ (.start t) (fun _ _ _ hat hplaced => hplaced.placeOne hat) ?_ ?_ ?_
  · exact fun interface rank _ => Iff.rfl
  · intro n attachment placed _ _ hleads interface rank hrank
    rw [hleads interface rank (Nat.lt_succ_of_lt hrank), t.placeOne_links_lt hrank]
  · intro n attachment placed _ hplaced hleads
    unfold placeOne
    by_cases hon : attachment.enabled = true
    · have hgoes : t.settle.1.goesOn n attachment placed.links =
          t.goesOn n attachment placed.links := by
        apply t.goesOn_settle
        intro interface
        rw [t.currentInterface_settle, hleads interface n (Nat.lt_succ_self n),
          t.placeOne_links_self hplaced hon]
      simp only [hgoes]
    · simp [hon]

/-! ## What the interfaces hold -/

/-- Candidates placed where they are held keep what is held. -/
theorem hold_of_candidates {s : Selector φ} {links : ExtTreeMap String Nat}
    (hplaced : ∀ interface : String,
      s.held[interface]?.map (·.link.candidate) = links[interface]?) :
    s.hold links = (s.held, s.nextAttempt) := by
  have hloop := OrderedMap.foldl_invariant_of_toList links s.holdOne
    (fun taken acc => acc.2 = s.nextAttempt ∧ ∀ interface : String, acc.1[interface]? =
      if interface ∈ taken.map Prod.fst then s.held[interface]? else none)
    (∅, s.nextAttempt) (by simp) (by
      intro taken interface candidate acc hlink _ hinv
      obtain ⟨h, hheld, hcandidate⟩ := Option.map_eq_some_iff.mp ((hplaced interface).trans hlink)
      have hturn : s.holdOne acc (interface, candidate) = (acc.1.insert interface h, acc.2) := by
        simp only [holdOne, hheld]
        rw [Option.filter_some, if_pos (by simp [hcandidate])]
      rw [hturn]
      refine ⟨hinv.1, fun other => ?_⟩
      rw [OrderedMap.getElem?_insert_ite]
      by_cases hsame : interface = other
      · simp [← hsame, hheld]
      · rw [if_neg hsame, hinv.2 other]
        simp only [List.map_append, List.mem_append, List.map_cons, List.map_nil,
          List.mem_singleton, Ne.symm hsame, or_false])
  change (s.hold links).2 = _ ∧ ∀ interface : String, (s.hold links).1[interface]? = _ at hloop
  refine Prod.ext (ExtTreeMap.ext_getElem? fun interface => ?_) hloop.1
  rw [hloop.2 interface, ExtTreeMap.map_fst_toList_eq_keys]
  split
  · rfl
  · rename_i hunlinked
    rw [ExtTreeMap.mem_keys, ExtTreeMap.mem_iff_isSome_getElem?, ← hplaced,
      Option.isSome_map, Option.not_isSome_iff_eq_none] at hunlinked
    exact hunlinked.symm

/-- A selector that has selected holds what it held. -/
theorem hold_settle (t : Selector φ) :
    t.settle.1.hold t.settle.1.place.links = (t.settle.1.held, t.settle.1.nextAttempt) := by
  apply hold_of_candidates
  rw [t.place_settle]
  exact t.hold_candidate t.place.links

/-- A selector that has selected knows the channels of clients it holds only. -/
theorem keptChannels_settle (t : Selector φ) :
    t.settle.1.keptChannels t.settle.1.held = t.settle.1.channels := by
  have hkept : ∀ radio : String, t.settle.1.channels[radio]? = t.channels[radio]?.filter
      fun _ => t.held[radio]?.any fun old => t.settle.1.held[radio]? == some old :=
    fun radio => ExtTreeMap.getElem?_filter'
  apply ExtTreeMap.ext_getElem?
  intro radio
  unfold keptChannels
  rw [ExtTreeMap.getElem?_filter']
  rcases hchannel : t.settle.1.channels[radio]? with _ | channel
  · rfl
  · rw [hkept, Option.filter_eq_some_iff] at hchannel
    obtain ⟨old, -, hheld⟩ := (Option.any_eq_true _ _).mp hchannel.2
    simp [eq_of_beq hheld]

/-! ## The hotspot -/

/-- Of some radios, the one the hotspot is on, else the first. -/
def stays (current : Option String) (among : List Radio) (first : Radio) : Radio :=
  (among.find? fun radio => some radio.station == current).getD first

/-- The radio the hotspot stayed on is the one it stays on. -/
theorem stays_stays {current : Option String} {among : List Radio} {first : Radio}
    (hfirst : among.head? = some first) :
    stays (some (stays current among first).station) among first =
      stays current among first := by
  unfold stays
  rcases hfound : among.find? fun radio => some radio.station == current with _ | radio
  · obtain ⟨rest, rfl⟩ := List.head?_eq_some_iff.mp hfirst
    simp [hfound]
  · have hcurrent : some radio.station = current := by simpa using List.find?_some hfound
    simp only [Option.getD_some, hcurrent, hfound]

/-- The best of the radios the hotspot may run on, and the first of them. -/
def hotspotAmong (s : Selector φ) : Option (List Radio × Radio) := do
  let hotspot ← s.document.enabledHotspot
  let options := (s.hardware.hotspotHosts s.document hotspot).filterMap fun radio =>
    (s.tier radio).map fun tier => (radio, tier)
  let best ← (options.map Prod.snd).min?
  let among := (options.filter fun (_, tier) => tier == best).map Prod.fst
  let first ← among.head?
  pure (among, first)

/-- The hotspot is placed on the best radio it is on, else on the first of the best. -/
theorem placeHotspot_eq (s : Selector φ) :
    s.placeHotspot = s.hotspotAmong.map fun (among, first) =>
      let radio := stays (s.decision.hotspot.map (·.radio)) among first
      { radio := radio.station, channel := s.channelOn radio } := by
  simp only [placeHotspot, hotspotAmong, Option.bind_eq_bind, Option.map_bind,
    Function.comp_def]
  rfl

/-- The first of the best radios leads them. -/
theorem head?_of_hotspotAmong {s : Selector φ} {among : List Radio} {first : Radio}
    (hamong : s.hotspotAmong = some (among, first)) : among.head? = some first := by
  unfold hotspotAmong at hamong
  simp only [Option.bind_eq_bind, Option.bind_eq_some_iff] at hamong
  obtain ⟨_, -, _, -, first', hfirst, hpair⟩ := hamong
  obtain ⟨rfl, rfl⟩ := Prod.mk.inj (Option.some.inj hpair)
  exact hfirst

/-- The hotspot is placed where it was placed. -/
theorem placeHotspot_again (s : Selector φ) (decision : Decision)
    (hhotspot : decision.hotspot = s.placeHotspot) :
    { s with decision := decision }.placeHotspot = s.placeHotspot := by
  have hsame : { s with decision := decision }.hotspotAmong = s.hotspotAmong := rfl
  rw [placeHotspot_eq, hsame, hhotspot, placeHotspot_eq]
  rcases hamong : s.hotspotAmong with _ | ⟨among, first⟩
  · rfl
  · simp only [Option.map_some, stays_stays (head?_of_hotspotAmong hamong)]
    rfl

/-! ## Selecting again -/

/-- A decision differs from itself in nothing. -/
theorem diff_self (decision : Decision) : diff decision decision = [] := by
  simp only [diff, bne_self_eq_false, Bool.false_eq_true, if_false, List.filterMap_none,
    List.nil_append, List.append_nil]
  rw [List.filterMap_eq_nil_iff]
  rintro ⟨state, rank⟩ hmem
  have hstate := List.mem_zipIdx_iff_getElem?.mp hmem
  simp [hstate]

/-- The decision of what is held, where nothing held or known of it changes. -/
def decided (s : Selector φ) : Decision where
  links := s.held.map fun _ h => h.link
  hotspot := s.placeHotspot
  defaultRoute := leastEstablished s.held
  states := (allStates s.place.idle (leastEstablished s.held) s.held.values).values

/-- Selecting again where nothing held or known of it changes. -/
theorem settle_of_kept {s : Selector φ}
    (hheld : s.hold s.place.links = (s.held, s.nextAttempt))
    (hchannels : s.keptChannels s.held = s.channels) :
    s.settle.1 = { s with decision := s.decided } := by
  unfold settle
  simp only [hheld, hchannels]
  rfl

/-- What was selected is decided again. -/
theorem decided_settle (t : Selector φ) : t.settle.1.decided = t.settle.1.decision := by
  have hhotspot : t.settle.1.placeHotspot = t.settle.1.decision.hotspot :=
    placeHotspot_again { t.settle.1 with decision := t.decision } t.settle.1.decision rfl
  unfold decided
  rw [hhotspot, t.place_settle]
  rfl

/-- Selecting again from what was selected changes nothing. -/
theorem settle_settle (t : Selector φ) : t.settle.1.settle = (t.settle.1, []) := by
  have hsame : t.settle.1.settle.1 = t.settle.1 := by
    rw [settle_of_kept t.hold_settle t.keptChannels_settle, decided_settle]
  refine Prod.ext hsame ?_
  calc t.settle.1.settle.2
      = diff t.settle.1.decision t.settle.1.settle.1.decision := rfl
    _ = [] := by rw [hsame, diff_self]

/-! ## Observations in force -/

/-- An observation that tells a selector what it knows. -/
def InForce (s : Selector φ) : Event → Prop
  | .carrier interface up => interface ∈ s.carrier ↔ up = true
  | .inRange interface ssid signal =>
      s.heard[(toLex (interface, ssid) : Hearing)]? = some signal
  | .outOfRange interface ssid => (toLex (interface, ssid) : Hearing) ∉ s.heard
  | .stationChannel interface channel => s.channels[interface]? = channel
  | .passed _ _ | .failed _ _ _ _ | .retry _ => False

/-- An observation in force is taken in as nothing. -/
theorem observe_inForce {s : Selector φ} {event : Event} (hforce : s.InForce event) :
    s.observe event = s := by
  cases event with
  | carrier interface up =>
      simp only [observe, carrierEvent]
      split
      · rfl
      · cases up with
        | true => simp [hforce.mpr rfl]
        | false =>
            have hdown : interface ∉ s.carrier := fun hin => Bool.noConfusion (hforce.mp hin)
            simp [OrderedMap.erase_of_notMem hdown]
  | inRange interface ssid signal =>
      simp only [observe, inRange, OrderedMap.insert_of_getElem? hforce]
      split
      · rfl
      · rw [if_pos (ExtTreeMap.mem_iff_isSome_getElem?.mpr (by rw [hforce]; rfl))]
  | outOfRange interface ssid =>
      simp only [observe, OrderedMap.erase_of_getElem? (ExtTreeMap.getElem?_eq_none hforce)]
  | stationChannel interface channel =>
      simp only [observe, stationChannel]
      split
      · rfl
      · cases channel with
        | some channel => simp only [OrderedMap.insert_of_getElem? hforce]
        | none => simp only [OrderedMap.erase_of_getElem? hforce]
  | passed attempt stage => exact hforce.elim
  | failed attempt stage member reason => exact hforce.elim
  | retry candidate => exact hforce.elim

/-- A reachable selector selects again to what it is. -/
theorem Current.settle_eq {hardware : Hardware} {s : Selector φ}
    (hcurrent : s.Current hardware) : s.settle = (s, []) := by
  obtain ⟨t, rfl⟩ := hcurrent.settled
  exact t.settle_settle

/-- An observation that leaves a reachable selector as it is, is reported as nothing. -/
theorem Current.handle_eq {hardware : Hardware} {s : Selector φ}
    (hcurrent : s.Current hardware) {event : Event} (hsame : s.observe event = s) :
    s.handle event = (s, []) := by
  rw [handle, hsame]
  exact hcurrent.settle_eq

/-- The document a selector holds is one its hardware can carry out. -/
def Accepted (s : Selector φ) : Prop :=
  check s.document s.hardware = .ok ()

/-- The document held is selected among again as nothing. -/
theorem configure_eq [BEq φ] [ReflBEq φ] {s : Selector φ} (haccepted : s.Accepted) :
    s.configure s.document = .ok (s, []) := by
  have hsame : (s.document == s.document) = true := BEq.rfl
  unfold Accepted at haccepted
  simp only [configure, haccepted, hsame, if_true]
  rfl

/-- A document configured is one accepted. -/
theorem configure_accepted [BEq φ] {s s' : Selector φ} {document : Document φ}
    {changes : List Change} (haccepted : s.Accepted)
    (hconfigure : s.configure document = .ok (s', changes)) : s'.Accepted := by
  have hchecked : check document s.hardware = .ok () := by
    unfold configure at hconfigure
    obtain ⟨⟨⟩, hcheck, -⟩ := Fallible.bind_ok.mp hconfigure
    exact hcheck
  rcases configure_cases hconfigure with ⟨-, rfl, -⟩ | ⟨-, hdocument, hhardware, -⟩
  · exact haccepted
  · rw [Accepted, hdocument, hhardware, hchecked]

end Selector

/-- The document of a reachable selector is one accepted. -/
theorem selecting_accepted [BEq φ] {hardware : Hardware} {s : Selector φ}
    (hreach : (selecting φ hardware).Reachable s) : s.Accepted := by
  refine hreach.invariant (fun s hstart => ?_) (fun s input s' _ haccepted hstep => ?_)
  · obtain ⟨document, hnew⟩ := hstart
    obtain ⟨hdocument, hhardware, -⟩ := Selector.new_keeps hnew
    unfold Selector.new at hnew
    obtain ⟨⟨⟩, hcheck, -⟩ := Fallible.bind_ok.mp hnew
    rw [Selector.Accepted, hdocument, hhardware, hcheck]
  · obtain ⟨changes, hfeed⟩ := hstep
    cases input with
    | handle event =>
        simp only [Selector.feed, Except.ok.injEq] at hfeed
        have hafter : (s.handle event).1 = s' := congrArg Prod.fst hfeed
        have hhardware : (s.handle event).1.hardware = s.hardware :=
          (Selector.settle_keeps _).1.trans (s.observe_carrier event).1
        rw [← hafter, Selector.Accepted, s.handle_document, hhardware]
        exact haccepted
    | configure document => exact Selector.configure_accepted haccepted hfeed

end Bliti.Network.Select
