import Bliti.Library.Fallible
import Bliti.Network.Render.Regdom
import Bliti.Network.Render.Selection

/-!
# Rendering - the hotspot's access point

The channels the hotspot is rendered on, how one is widened, and hostapd's
configuration.
-/

namespace Bliti.Network.Render

open Channel.Config

namespace Hostapd

/-! ## Channels -/

/-- Where hostapd listens for its control client. -/
def CONTROL : String := "/run/hostapd"

/-- The channel a hotspot takes where nothing chooses one. -/
def DEFAULT_CHANNEL : Channel where
  band := .twoPointFour
  number := 6

/-- A member of the hotspot. -/
def atMember (member : String) : List Segment :=
  [.name "hotspot", .name member]

/-- The band a document names. -/
def band (name : String) : Except String Band :=
  if name = "2ghz" then .ok .twoPointFour
  else if name = "5ghz" then .ok .five
  else .error (Text.debug name ++ " is not a band; bands are \"2ghz\" and \"5ghz\"")

/-- Whether a number is one of a 20 MHz channel on a band. -/
def isChannel (band : Band) (number : Nat) : Bool :=
  match band with
  | .twoPointFour => 1 ≤ number && number ≤ 14
  | .five =>
      (number % 4 == 0 &&
        ((36 ≤ number && number ≤ 64) || (100 ≤ number && number ≤ 144))) ||
      (number % 4 == 1 && (149 ≤ number && number ≤ 177))

/-- The channels bonded with one, of the groups of a size that start at some
channels. -/
def bonded (number size : Nat) (starts : List Nat) : Option (List Nat) :=
  (starts.find? fun start =>
    (start ≤ number && number < start + 4 * size) && (number - start) % 4 == 0).map
    fun start => (List.range size).map fun step => start + 4 * step

/-- The 20 MHz channels a channel of a width spans, where it is one. -/
def span (channel : Channel) (width : Nat) : Option (List Nat) :=
  match channel.band, width with
  | _, 20 => some [channel.number]
  | .twoPointFour, 40 =>
      if channel.number ≤ 7 then some [channel.number, channel.number + 4]
      else some [channel.number - 4, channel.number]
  | .five, 40 =>
      bonded channel.number 2 [36, 44, 52, 60, 100, 108, 116, 124, 132, 140, 149, 157]
  | .five, 80 => bonded channel.number 4 [36, 52, 100, 116, 132, 149]
  | _, _ => none

/-- A channel is among those bonded with it. -/
theorem mem_bonded {number size : Nat} {starts group : List Nat}
    (hgroup : bonded number size starts = some group) : number ∈ group := by
  obtain ⟨start, hfind, rfl⟩ := Option.map_eq_some_iff.mp hgroup
  have hin := List.find?_some hfind
  simp only [Bool.and_eq_true, decide_eq_true_eq, beq_iff_eq] at hin
  obtain ⟨⟨hfrom, hto⟩, hstep⟩ := hin
  rw [List.mem_map]
  refine ⟨(number - start) / 4, List.mem_range.mpr (by omega), by omega⟩

/-- A channel is among those it spans. -/
theorem mem_span {channel : Channel} {width : Nat} {channels : List Nat}
    (hspan : span channel width = some channels) : channel.number ∈ channels := by
  unfold span at hspan
  split at hspan
  · cases hspan
    exact List.mem_singleton_self _
  · split at hspan
    · cases hspan
      exact List.mem_cons_self
    · cases hspan
      exact List.mem_cons_of_mem _ List.mem_cons_self
  · exact mem_bonded hspan
  · exact mem_bonded hspan
  · cases hspan

/-- The side of a channel its secondary one is on. -/
def secondary (above : Bool) : String :=
  "ht_capab=[HT40" ++ (if above then "+" else "-") ++ "]\n"

/-- How a channel is widened. -/
def widen (channel : Channel) (width : Nat) : Except String String :=
  if (width = 40 ∨ width = 80) ∧ span channel width = none then
    .error ("channel " ++ toString channel.number ++ " cannot be widened to " ++
      toString width ++ " MHz")
  else
    match channel.band with
    | .twoPointFour =>
        if width = 20 then .ok ""
        else if width = 40 then .ok (secondary (channel.number ≤ 7))
        else .error (toString width ++ " MHz is not a 2.4 GHz channel width")
    | .five =>
        if width = 20 then .ok ""
        else if width = 40 ∨ width = 80 then
          let base := if 149 ≤ channel.number then 149 else 36
          let offset := channel.number - base
          let centre := base + offset / 16 * 16 + 6
          .ok (secondary (offset / 4 % 2 == 0) ++
            if width = 80 then
              "vht_oper_chwidth=1\nvht_oper_centr_freq_seg0_idx=" ++ toString centre ++ "\n"
            else "")
        else .error (toString width ++ " MHz is not a 5 GHz channel width")

/-- Nothing needs widening to 20 MHz. -/
@[simp]
theorem widen_twenty (channel : Channel) : widen channel 20 = .ok "" := by
  cases hband : channel.band with
  | twoPointFour => simp [widen, hband]
  | five => simp [widen, hband]

/-! ## What the hotspot operates on -/

/-- The band a hotspot chooses, where it chooses one. -/
def chosenBand (hotspot : Hotspot) : Except Invalid (Option Band) :=
  match hotspot.band with
  | none => .ok none
  | some name =>
      match band name with
      | .ok band => .ok (some band)
      | .error reason => .error (invalid (atMember "band") reason)

/-- The channel a hotspot takes by itself. -/
def chosenChannel (band : Option Band) (number : Option Nat) : Channel :=
  match band, number with
  | none, none => DEFAULT_CHANNEL
  | some .twoPointFour, none => DEFAULT_CHANNEL
  | some .five, none => { band := .five, number := 36 }
  | some band, some number => { band := band, number := number }
  | none, some number =>
      { band := if number ≤ 14 then .twoPointFour else .five, number := number }

/-- The channel and width a hotspot operates on: a client's channel on a radio
sharing one, else what it takes by itself. -/
def operating (hotspot : Hotspot) (shared : Bool) (station : Option Channel) :
    Except Invalid (Channel × Nat) :=
  match shared, station with
  | true, some station => .ok (station, 20)
  | _, _ => do
      let band ← chosenBand hotspot
      let channel := chosenChannel band hotspot.channel
      if isChannel channel.band channel.number then
        pure (channel, hotspot.channelWidth.getD 20)
      else
        .error (invalid (atMember "channel")
          (toString channel.number ++ " is not a channel on this band"))

/-- What a hotspot takes by itself is a channel there is, of a band it does not choose
another than. -/
theorem operating_own {hotspot : Hotspot} {channel : Channel} {width : Nat}
    (hown : operating hotspot false none = .ok (channel, width)) :
    isChannel channel.band channel.number = true ∧ width = hotspot.channelWidth.getD 20 ∧
      (∀ name, hotspot.band = some name → band name = .ok channel.band) ∧
      ∀ number, hotspot.channel = some number → channel.number = number := by
  unfold operating at hown
  obtain ⟨chosen, hchosen, hown⟩ := Fallible.bind_ok.mp hown
  simp only at hown
  split at hown
  · rename_i hexists
    obtain ⟨rfl, rfl⟩ := Prod.mk.inj (Fallible.pure_ok.mp hown)
    refine ⟨hexists, rfl, fun name hname => ?_, fun number hnumber => ?_⟩
    · unfold chosenBand at hchosen
      rw [hname] at hchosen
      simp only at hchosen
      split at hchosen
      · rename_i named hnamed
        cases hchosen
        rw [hnamed]
        cases named with
        | twoPointFour => cases hotspot.channel <;> rfl
        | five => cases hotspot.channel <;> rfl
      · cases hchosen
    · rw [hnumber]
      cases chosen with
      | none => rfl
      | some named => cases named <;> rfl
  · cases hown

/-- A hotspot operates on a client's channel, or on what it takes with none. -/
theorem operating_cases (hotspot : Hotspot) (shared : Bool) (station : Option Channel) :
    (∃ channel, shared = true ∧ station = some channel ∧
      operating hotspot shared station = .ok (channel, 20)) ∨
    operating hotspot shared station = operating hotspot false none := by
  cases shared with
  | false => exact .inr rfl
  | true =>
      cases station with
      | none => exact .inr rfl
      | some channel => exact .inl ⟨channel, rfl, rfl, rfl⟩

/-! ## The configuration -/

/-- What a hotspot operates on, with how its channel is widened. -/
def widened (hotspot : Hotspot) (shared : Bool) (station : Option Channel) :
    Except Invalid (Channel × String) := do
  let (channel, width) ← operating hotspot shared station
  match widen channel width with
  | .ok wider => pure (channel, wider)
  | .error reason => .error (invalid (atMember "channel-width") reason)

/-- The configuration of a hotspot operating on a channel. -/
def contents (hotspot : Hotspot) (interface : String) (domain : Option String)
    (channel : Channel) (wider : String) : String :=
  header "the hotspot" ++
    "interface=" ++ interface ++ "\ndriver=nl80211\nctrl_interface=" ++ CONTROL ++
    "\nssid2=" ++ Text.hexBytes hotspot.ssid ++ "\nutf8_ssid=1\n" ++
    (match domain with
      | some domain => "country_code=" ++ domain ++ "\nieee80211d=1\n"
      | none => "") ++
    "hw_mode=" ++ (match channel.band with
      | .twoPointFour => "g"
      | .five => "a") ++
    "\nchannel=" ++ toString channel.number ++ "\nwmm_enabled=1\nieee80211n=1\n" ++
    (match channel.band with
      | .twoPointFour => ""
      | .five => "ieee80211ac=1\n") ++
    wider ++
    "wpa=2\nwpa_key_mgmt=WPA-PSK\nrsn_pairwise=CCMP\nieee80211w=1\nwpa_passphrase=" ++
    hotspot.passphrase ++ "\nap_isolate=" ++
    (if hotspot.isolateClients.getD true then "1" else "0") ++ "\nwps_state=0\n"

/-- hostapd's configuration for the hotspot on an access point interface. -/
def conf (hotspot : Hotspot) (accessPoint : AccessPoint) (station : Option Channel)
    (paths : Paths) (domain : Option String) : Except Invalid File :=
  if !isSsid hotspot.ssid then
    .error (invalid (atMember "ssid") "an SSID is 1 to 32 bytes")
  else if !isPassphrase hotspot.passphrase then
    .error (invalid (atMember "passphrase")
      "a passphrase is 8 to 63 printable ASCII characters")
  else do
    let (channel, wider) ← widened hotspot (accessPoint.alongside == .sharedChannel) station
    pure {
      path := paths.hostapdConf accessPoint.interface
      contents := contents hotspot accessPoint.interface domain channel wider
      mode := SECRET }

/-- A hotspot that can be widened with no client to follow can whatever it follows. -/
theorem widened_of_own {hotspot : Hotspot} {own : Channel × String} (shared : Bool)
    (station : Option Channel) (hown : widened hotspot false none = .ok own) :
    ∃ channel wider, widened hotspot shared station = .ok (channel, wider) := by
  rcases operating_cases hotspot shared station with ⟨channel, -, -, hfollows⟩ | hsame
  · refine ⟨channel, "", ?_⟩
    simp only [widened, hfollows, Fallible.ok_bind, widen_twenty]
    rfl
  · refine ⟨own.1, own.2, ?_⟩
    rw [widened, hsame]
    exact hown

/-- A hotspot with no client to follow is widened as it is on its own. -/
theorem widened_none (hotspot : Hotspot) (shared : Bool) :
    widened hotspot shared none = widened hotspot false none := by
  rcases operating_cases hotspot shared none with ⟨channel, -, hstation, -⟩ | hsame
  · cases hstation
  · rw [widened, widened, hsame]

/-- A hotspot that renders with no client to follow is widened on its own. -/
theorem widened_of_conf {hotspot : Hotspot} {one : AccessPoint} {paths : Paths}
    {domain : Option String} {file : File}
    (hown : conf hotspot one none paths domain = .ok file) :
    isSsid hotspot.ssid = true ∧ isPassphrase hotspot.passphrase = true ∧
      ∃ own, widened hotspot false none = .ok own := by
  unfold conf at hown
  split at hown
  · cases hown
  rename_i hssid
  split at hown
  · cases hown
  rename_i hpassphrase
  obtain ⟨own, hwidened, -⟩ := Fallible.bind_ok.mp hown
  rw [widened_none] at hwidened
  exact ⟨by simpa using hssid, by simpa using hpassphrase, own, hwidened⟩

/-- A hotspot that renders with no client to follow has a channel and width of its own. -/
theorem operating_of_conf {hotspot : Hotspot} {one : AccessPoint} {paths : Paths}
    {domain : Option String} {file : File}
    (hown : conf hotspot one none paths domain = .ok file) :
    ∃ channel width, operating hotspot false none = .ok (channel, width) := by
  obtain ⟨-, -, own, hwidened⟩ := widened_of_conf hown
  obtain ⟨⟨channel, width⟩, hoperating, -⟩ := Fallible.bind_ok.mp hwidened
  exact ⟨channel, width, hoperating⟩

/-- A hotspot that renders with no client to follow renders on any radio, whatever it
follows there. -/
theorem conf_of_own {hotspot : Hotspot} {one : AccessPoint} {paths : Paths}
    {domain : Option String} {file : File}
    (hown : conf hotspot one none paths domain = .ok file) (other : AccessPoint)
    (station : Option Channel) :
    ∃ file, conf hotspot other station paths domain = .ok file := by
  obtain ⟨hssid, hpassphrase, own, hwidened⟩ := widened_of_conf hown
  obtain ⟨channel, wider, hother⟩ :=
    widened_of_own (other.alongside == .sharedChannel) station hwidened
  unfold conf
  rw [hssid, hpassphrase, hother]
  exact ⟨_, rfl⟩

end Hostapd

/-! ## What capabilities are given -/

/-- The 20 MHz channels the hotspot occupies on a channel of a band at a width, where
that pair renders. -/
def hotspotSpan (band : String) (channel width : Nat) : Option (Band × List Nat) :=
  match Hostapd.band band with
  | .ok band =>
      if Hostapd.isChannel band channel then
        (Hostapd.span { band := band, number := channel } width).map fun span => (band, span)
      else none
  | .error _ => none

/-- Whether the hotspot renders on a channel of a band. -/
def hotspotChannel (band : String) (channel : Nat) : Bool :=
  match Hostapd.band band with
  | .ok band => Hostapd.isChannel band channel
  | .error _ => false

end Bliti.Network.Render
