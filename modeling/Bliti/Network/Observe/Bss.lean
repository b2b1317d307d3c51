import Bliti.Library.Checked

/-!
# Observing - an access point a radio heard

One access point, read from the information elements of its beacon or probe response.
-/

namespace Bliti.Network.Observe

/-- Bytes, as the kernel hands them over. -/
abbrev Bytes := List UInt8

/-- What an access point advertises. -/
inductive Advertised where
  | enterprise
  | psk
  | sae
  | owe
  | wep
  | unprotected
deriving DecidableEq, Repr

/-- What is advertised, in the vocabulary of a configuration. -/
def Advertised.name : Advertised → String
  | .enterprise => "enterprise"
  | .psk => "psk"
  | .sae => "sae"
  | .owe => "owe"
  | .wep => "wep"
  | .unprotected => "open"

/-- An access point, as a scan heard it. -/
structure AccessPoint where
  bssid : Bytes
  ssid : Option String
  frequency : UInt32
  width : UInt32
  secondary : Option UInt32
  signal : Int
  security : List Advertised
  country : Option String
  environment : Option String
deriving DecidableEq

/-! ## The elements read -/

def SSID : UInt8 := 0
def COUNTRY : UInt8 := 7
def HT_OPERATION : UInt8 := 61
def RSN : UInt8 := 48
def VHT_OPERATION : UInt8 := 192
def VENDOR : UInt8 := 221

/-- What the vendor element of WPA starts with, which access points of its first version carry
instead of RSN. -/
def WPA : Bytes := [0x00, 0x50, 0xf2, 0x01]

/-- What the suites of RSN are numbered under. -/
def IEEE : Bytes := [0x00, 0x0f, 0xac]

/-- The capability bit of an access point that requires privacy. -/
def PRIVACY : UInt16 := 0x10

/-- The first element of a buffer, its id and its body, and what follows it. -/
def next : Bytes → Option ((UInt8 × Bytes) × Bytes)
  | id :: len :: rest =>
      if len.toNat ≤ rest.length then some ((id, rest.take len.toNat), rest.drop len.toNat)
      else none
  | _ => none

/-- The elements of a buffer, up to so many. -/
def collect : Nat → Bytes → List (UInt8 × Bytes)
  | 0, _ => []
  | most + 1, bytes =>
      match next bytes with
      | none => []
      | some (element, rest) => element :: collect most rest

/-- The elements of a buffer, stopping at the first that overruns it. -/
def elements (bytes : Bytes) : List (UInt8 × Bytes) :=
  collect bytes.length bytes

/-- The body of the first element with an id. -/
def find (elements : List (UInt8 × Bytes)) (id : UInt8) : Option Bytes :=
  (elements.find? fun element => element.1 == id).map Prod.snd

/-! ## Text -/

/-- Some bytes of a character that follow its first, each in a range, the ranges after the first of
them the same: its number where they do, and what is left where they stop. -/
def continued : Nat → UInt8 → UInt8 → Nat → Bytes → Option Nat × Bytes
  | 0, _, _, number, bytes => (some number, bytes)
  | _ + 1, _, _, _, [] => (none, [])
  | more + 1, low, high, number, byte :: bytes =>
      if low ≤ byte && byte ≤ high then
        continued more 0x80 0xbf (number * 64 + (byte.toNat - 0x80)) bytes
      else (none, byte :: bytes)

/-- The character a byte starts, and what follows it: the replacement character where it starts
none. -/
def character (first : UInt8) (bytes : Bytes) : Char × Bytes :=
  let (number, rest) :=
    if first < 0x80 then (some first.toNat, bytes)
    else if 0xc2 ≤ first && first ≤ 0xdf then
      continued 1 0x80 0xbf (first.toNat - 0xc0) bytes
    else if first == 0xe0 then continued 2 0xa0 0xbf 0 bytes
    else if first == 0xed then continued 2 0x80 0x9f 0xd bytes
    else if 0xe1 ≤ first && first ≤ 0xef then
      continued 2 0x80 0xbf (first.toNat - 0xe0) bytes
    else if first == 0xf0 then continued 3 0x90 0xbf 0 bytes
    else if 0xf1 ≤ first && first ≤ 0xf3 then
      continued 3 0x80 0xbf (first.toNat - 0xf0) bytes
    else if first == 0xf4 then continued 3 0x80 0x8f 4 bytes
    else (none, bytes)
  match number with
  | some number => (.ofNat number, rest)
  | none => ('\uFFFD', rest)

/-- The characters of some bytes, up to so many. -/
def characters : Nat → Bytes → List Char
  | 0, _ | _, [] => []
  | most + 1, first :: bytes =>
      let (char, rest) := character first bytes
      char :: characters most rest

/-- Bytes as text, each stretch that is none replaced. -/
def fromUtf8Lossy (bytes : Bytes) : String :=
  String.ofList (characters bytes.length bytes)

/-! ## What each element says -/

/-- The two bytes at a place, the low one first. -/
def count (body : Bytes) (place : Nat) : Option Nat :=
  match body[place]?, body[place + 1]? with
  | some low, some high => some (low.toNat + 256 * high.toNat)
  | _, _ => none

/-- The bytes of a body from one place to another. -/
def slice (body : Bytes) (start stop : Nat) : Option Bytes :=
  if stop ≤ body.length then some ((body.drop start).take (stop - start)) else none

/-- What a suite advertises. -/
def advertised (suite : Bytes) : Option Advertised :=
  if suite.take 3 == IEEE || suite.take 3 == WPA.take 3 then
    match (suite[3]? : Option UInt8) with
    | some 1 | some 3 | some 5 | some 11 | some 12 | some 13 => some .enterprise
    | some 2 | some 4 | some 6 => some .psk
    | some 8 | some 9 | some 24 | some 25 => some .sae
    | some 18 => some .owe
    | _ => none
  else none

/-- What the suites of an RSN or WPA element advertise, starting after its version. -/
def akmSuites (body : Bytes) (skip : Nat) : List Advertised :=
  let pairwise := skip + 4
  match count body pairwise with
  | none => []
  | some ciphers =>
      let akms := pairwise + 2 + ciphers * 4
      match count body akms with
      -- An element stopping before its list.
      | none => [.enterprise]
      | some suites =>
          ((List.range suites).filterMap fun index =>
            slice body (akms + 2 + index * 4) (akms + 6 + index * 4)).filterMap advertised

/-- An ASCII letter. -/
def isLetter (byte : UInt8) : Bool :=
  (0x41 ≤ byte && byte ≤ 0x5a) || (0x61 ≤ byte && byte ≤ 0x7a)

/-- An ASCII letter in upper case. -/
def upper (byte : UInt8) : Char :=
  .ofNat (if 0x61 ≤ byte then byte.toNat - 0x20 else byte.toNat)

/-- The country a Country element names and the environment it gives. -/
def country : Bytes → Option String × Option String
  | first :: second :: rest =>
      if isLetter first && isLetter second then
        let environment := match rest.head? with
          | some 0x20 => some "any"
          | some 0x49 => some "indoor"
          | some 0x4f => some "outdoor"
          | _ => none
        (some (String.ofList [upper first, upper second]), environment)
      else (none, none)
  | _ => (none, none)

/-- How far apart two numbers are. -/
def absDiff (x y : UInt8) : Nat :=
  (x.toNat - y.toNat) + (y.toNat - x.toNat)

/-- The width an HT operation element gives. -/
def htWidth : Option Bytes → UInt32
  | some (_ :: info :: _) => if info &&& 0b11 != 0 && info &&& 0b100 != 0 then 40 else 20
  | _ => 20

/-- The width an access point occupies. -/
def width (ht vht : Option Bytes) : UInt32 :=
  match vht with
  | some (1 :: seg0 :: seg1 :: _) =>
      if seg1 != 0 && absDiff seg0 seg1 == 8 then 160
      else if seg1 != 0 && 16 < absDiff seg0 seg1 then 160
      else 80
  | some (2 :: _ :: _ :: _) | some (3 :: _ :: _ :: _) => 160
  | _ => htWidth ht

/-- The centre frequency of an access point's secondary channel, where it does not overflow. -/
def secondary (ht : Option Bytes) (frequency : UInt32) : Option (Option UInt32) :=
  match ht with
  | some (_ :: info :: _) =>
      if info &&& 0b100 != 0 then
        match info &&& 0b11 with
        | 1 => (Checked.add frequency 20).map some
        | 3 => some (Checked.sub frequency 20)
        | _ => some none
      else some none
  | _ => some none

/-! ## The access point -/

/-- Each named once. -/
def pushAll (kinds : List Advertised) : List Advertised :=
  kinds.foldl (fun security kind =>
    if security.contains kind then security else security ++ [kind]) []

/-- What an access point advertises. -/
def security (elements : List (UInt8 × Bytes)) (capability : UInt16) : List Advertised :=
  match find elements RSN with
  | some rsn => pushAll (akmSuites rsn 2)
  | none =>
      match elements.find? fun element => element.1 == VENDOR && WPA.isPrefixOf element.2 with
      | some wpa => pushAll (akmSuites (wpa.2.drop WPA.length) 2)
      | none => if capability &&& PRIVACY != 0 then [.wep] else [.unprotected]

/-- An access point, from what is reported of it. -/
def AccessPoint.read (bssid : Bytes) (frequency : UInt32) (signalMbm : Int) (capability : UInt16)
    (bytes : Bytes) : Option AccessPoint :=
  let elements := Observe.elements bytes
  let ssid := (find elements SSID).bind fun raw =>
    -- A hidden network sends an empty one, or one of the right length that is all zeros.
    if !raw.isEmpty && raw.any (· != 0) then some (fromUtf8Lossy raw) else none
  let (country, environment) := match find elements COUNTRY with
    | some body => Observe.country body
    | none => (none, none)
  (Observe.secondary (find elements HT_OPERATION) frequency).map fun secondary => {
    bssid := bssid
    ssid := ssid
    frequency := frequency
    width := Observe.width (find elements HT_OPERATION) (find elements VHT_OPERATION)
    secondary := secondary
    signal := signalMbm / 100
    security := Observe.security elements capability
    country := country
    environment := environment }

end Bliti.Network.Observe
