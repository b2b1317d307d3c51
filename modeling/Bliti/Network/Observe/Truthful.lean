import Bliti.Network.Observe.Bss
import Mathlib.Data.List.Basic
import Mathlib.Data.List.Infix
import Mathlib.Data.List.Range
import Mathlib.Data.List.Nodup
import Mathlib.Tactic.Ring

/-!
# Observing - reading an access point truthfully

The elements of a beacon are whoever sent it's own: every length and count in them is theirs.

Main results:

- Theorem `truthful_iff`: exactly which beacons are.
-/

namespace Bliti.Network.Observe

/-! ## The longest prefix of whole elements -/

/-- Elements as they are sent. -/
def encoded (elements : List (UInt8 × Bytes)) : Bytes :=
  elements.flatMap fun element => element.1 :: UInt8.ofNat element.2.length :: element.2

/-- An element short enough to be sent. -/
def Sendable (element : UInt8 × Bytes) : Prop :=
  element.2.length < 256

section Elements

variable {bytes rest : Bytes} {element : UInt8 × Bytes}

/-- An element read is sent as it was, and can be. -/
theorem next_some (hnext : next bytes = some (element, rest)) :
    bytes = element.1 :: UInt8.ofNat element.2.length :: element.2 ++ rest ∧ Sendable element := by
  unfold next at hnext
  split at hnext
  · rename_i id len tail
    split_ifs at hnext with hlen
    cases hnext
    have htake : (tail.take len.toNat).length = len.toNat := List.length_take_of_le hlen
    constructor
    · dsimp only
      rw [htake, UInt8.ofNat_toNat, List.cons_append, List.cons_append, List.take_append_drop]
    · unfold Sendable
      rw [htake]
      exact len.toNat_lt
  · cases hnext

/-- An element sent is read. -/
theorem next_sent (hsendable : Sendable element) (rest : Bytes) :
    next (element.1 :: UInt8.ofNat element.2.length :: element.2 ++ rest) = some (element, rest) := by
  have hlen : (UInt8.ofNat element.2.length).toNat = element.2.length := by
    rw [UInt8.toNat_ofNat']
    exact Nat.mod_eq_of_lt hsendable
  simp [next, hlen]

/-- What follows an element is shorter. -/
theorem next_length (hnext : next bytes = some (element, rest)) :
    rest.length < bytes.length := by
  rw [(next_some hnext).1]
  simp
  omega

/-- Reading up to more elements than there are bytes reads no more. -/
theorem collect_eq {most more : Nat} (hmost : bytes.length ≤ most) (hmore : bytes.length ≤ more) :
    collect most bytes = collect more bytes := by
  have hempty : ∀ more, collect more [] = [] := by
    intro more
    cases more with
    | zero => rfl
    | succ more => rfl
  induction most generalizing bytes more with
  | zero =>
      obtain rfl := List.length_eq_zero_iff.mp (Nat.le_zero.mp hmost)
      rw [hempty, hempty]
  | succ most ih =>
      cases more with
      | zero =>
          obtain rfl := List.length_eq_zero_iff.mp (Nat.le_zero.mp hmore)
          rw [hempty, hempty]
      | succ more =>
          unfold collect
          rcases hnext : next bytes with _ | ⟨element, rest⟩
          · rfl
          · have hless := next_length hnext
            exact congrArg (element :: ·) (ih (by omega) (by omega))

/-- The elements of a buffer are its first and those of what follows. -/
theorem elements_eq (bytes : Bytes) :
    elements bytes =
      match next bytes with
      | none => []
      | some (element, rest) => element :: elements rest := by
  rcases hnext : next bytes with _ | ⟨element, rest⟩
  · unfold elements
    cases bytes.length with
    | zero => rfl
    | succ most => simp [collect, hnext]
  · have hless := next_length hnext
    unfold elements
    rw [collect_eq le_rfl (Nat.le_succ bytes.length)]
    simp only [collect, hnext]
    rw [collect_eq (Nat.le_of_lt hless) le_rfl]

/-- The elements read are sent as a prefix of the buffer. -/
theorem encoded_elements (bytes : Bytes) : encoded (elements bytes) <+: bytes := by
  induction hlength : bytes.length using Nat.strong_induction_on generalizing bytes with
  | _ most ih =>
      rw [elements_eq]
      rcases hnext : next bytes with _ | ⟨element, rest⟩
      · exact List.nil_prefix
      · obtain ⟨tail, htail⟩ := ih rest.length (hlength ▸ next_length hnext) rest rfl
        refine ⟨tail, ?_⟩
        rw [(next_some hnext).1, encoded, List.flatMap_cons, List.append_assoc, ← encoded, htail]

/-- Any elements sent as a prefix of the buffer are the first of those read. -/
theorem prefix_elements {sent : List (UInt8 × Bytes)} (hsendable : ∀ element ∈ sent, Sendable element)
    (hlead : encoded sent <+: bytes) : sent <+: elements bytes := by
  induction sent generalizing bytes with
  | nil => exact List.nil_prefix
  | cons element sent ih =>
      obtain ⟨tail, rfl⟩ := hlead
      have hfirst : Sendable element := hsendable element List.mem_cons_self
      rw [encoded, List.flatMap_cons, List.append_assoc, ← encoded, elements_eq,
        next_sent hfirst]
      rw [List.cons_prefix_cons]
      refine ⟨rfl, ih ?_ (List.prefix_append _ _)⟩
      intro other hother
      exact hsendable other (List.mem_cons_of_mem _ hother)

end Elements

/-! ## What the suites say -/

/-- Where the list of suites of an RSN element starts, and how many it counts, where the element
reaches it. -/
def listed (body : Bytes) : Option (Nat × Nat) :=
  (count body 6).bind fun ciphers =>
    (count body (8 + ciphers * 4)).map fun suites => (10 + ciphers * 4, suites)

/-- The suites wholly present of an RSN element: of those it counts, those it holds. -/
def wholeSuites (body : Bytes) : List Bytes :=
  match listed body with
  | none => []
  | some (start, suites) =>
      (List.range (min suites ((body.length - start) / 4))).map fun index =>
        (body.drop (start + index * 4)).take 4

/-- An RSN element stops before its list of suites, after its version, its group cipher or its list
of pairwise ciphers. -/
def StopsEarly (body : Bytes) : Prop :=
  body.length = 2 ∨ body.length = 6 ∨
    ∃ ciphers, count body 6 = some ciphers ∧ body.length = 8 + ciphers * 4

/-- What an RSN element says an access point advertises: what its suites do, or `enterprise` where it
stops before them. -/
def Says (body : Bytes) (kind : Advertised) : Prop :=
  (StopsEarly body ∧ kind = .enterprise) ∨
    (¬StopsEarly body ∧ ∃ suite ∈ wholeSuites body, advertised suite = some kind)

/-- A beacon is read truthfully: reading it overflows nowhere; the elements considered are the longest
prefix of whole elements; and where one is an RSN element, what is advertised is what the first says,
each named once. -/
structure Truthful (bssid : Bytes) (frequency : UInt32) (signalMbm : Int) (capability : UInt16)
    (bytes : Bytes) : Prop where
  returns : ∃ ap, AccessPoint.read bssid frequency signalMbm capability bytes = some ap
  sent : encoded (elements bytes) <+: bytes
  longest : ∀ sent, (∀ element ∈ sent, Sendable element) → encoded sent <+: bytes →
    sent <+: elements bytes
  security : ∀ ap body,
    AccessPoint.read bssid frequency signalMbm capability bytes = some ap →
    find (elements bytes) RSN = some body →
      ap.security.Nodup ∧ ∀ kind, kind ∈ ap.security ↔ Says body kind

/-- An HT operation element puts the secondary channel above the primary, where a station may use
it. -/
def Above (ht : Option Bytes) : Prop :=
  ∃ first info rest, ht = some (first :: info :: rest) ∧ info &&& 0b100 ≠ 0 ∧ info &&& 0b11 = 1

/-- An RSN element stops after its version or its group cipher, or part-way through its list of
pairwise ciphers or the count of its suites. -/
def StopsShort (body : Bytes) : Prop :=
  body.length = 2 ∨ body.length = 6 ∨
    ∃ ciphers, count body 6 = some ciphers ∧ body.length < 10 + ciphers * 4 ∧
      body.length ≠ 8 + ciphers * 4

section Suites

variable {body : Bytes}

theorem count_isSome (body : Bytes) (place : Nat) :
    (count body place).isSome = true ↔ place + 2 ≤ body.length := by
  unfold count
  rcases hlow : body[place]? with _ | low
  · have hshort := List.getElem?_eq_none_iff.mp hlow
    refine iff_of_false (by simp) (by omega)
  · rcases hhigh : body[place + 1]? with _ | high
    · have hshort := List.getElem?_eq_none_iff.mp hhigh
      refine iff_of_false (by simp) (by omega)
    · have hlong := (List.getElem?_eq_some_iff.mp hhigh).1
      exact iff_of_true rfl hlong

/-- The slices of four bytes from a place on, of so many, are those the body holds. -/
theorem slices_eq (body : Bytes) (start suites : Nat) :
    (List.range suites).filterMap (fun index =>
        slice body (start + index * 4) (start + 4 + index * 4)) =
      (List.range (min suites ((body.length - start) / 4))).map fun index =>
        (body.drop (start + index * 4)).take 4 := by
  induction suites with
  | zero => simp
  | succ suites ih =>
      rw [List.range_succ, List.filterMap_append, ih]
      unfold slice
      by_cases hholds : start + 4 + suites * 4 ≤ body.length
      · have hmin : min (suites + 1) ((body.length - start) / 4) =
            min suites ((body.length - start) / 4) + 1 := by omega
        have hall : min suites ((body.length - start) / 4) = suites := by omega
        have hwidth : start + 4 + suites * 4 - (start + suites * 4) = 4 := by omega
        rw [hmin, hall, List.range_succ, List.map_append]
        simp [hholds, hwidth]
      · have hmin : min (suites + 1) ((body.length - start) / 4) =
            min suites ((body.length - start) / 4) := by omega
        rw [hmin]
        simp [hholds]

/-- The suites of an RSN element that reaches its list are those wholly present. -/
theorem akmSuites_listed {start suites : Nat} (hlisted : listed body = some (start, suites)) :
    akmSuites body 2 = (wholeSuites body).filterMap advertised := by
  obtain ⟨ciphers, hciphers, hrest⟩ := Option.bind_eq_some_iff.mp hlisted
  obtain ⟨suites', hsuites, hpair⟩ := Option.map_eq_some_iff.mp hrest
  cases hpair
  have hslices : ∀ index, slice body (8 + ciphers * 4 + 2 + index * 4) (8 + ciphers * 4 + 6 + index * 4) =
      slice body (10 + ciphers * 4 + index * 4) (10 + ciphers * 4 + 4 + index * 4) := by
    intro index
    rw [show 8 + ciphers * 4 + 2 + index * 4 = 10 + ciphers * 4 + index * 4 by omega,
      show 8 + ciphers * 4 + 6 + index * 4 = 10 + ciphers * 4 + 4 + index * 4 by omega]
  unfold akmSuites wholeSuites
  simp only [hlisted, hciphers, hsuites, hslices, slices_eq, Nat.reduceAdd]

/-- An RSN element that stops before the count of its pairwise ciphers advertises nothing. -/
theorem akmSuites_uncounted (hcount : count body 6 = none) : akmSuites body 2 = [] := by
  simp only [akmSuites, Nat.reduceAdd, hcount]

/-- One that stops before the count of its suites advertises `enterprise`. -/
theorem akmSuites_unlisted {ciphers : Nat} (hcount : count body 6 = some ciphers)
    (hsuites : count body (8 + ciphers * 4) = none) : akmSuites body 2 = [.enterprise] := by
  simp only [akmSuites, Nat.reduceAdd, hcount, hsuites]

/-- Nothing is wholly present of an element that does not reach its list. -/
theorem wholeSuites_unlisted (hlisted : listed body = none) : wholeSuites body = [] := by
  rw [wholeSuites, hlisted]

/-- What is pushed is named once, and nothing else is. -/
theorem pushAll_mem (kinds : List Advertised) :
    (pushAll kinds).Nodup ∧ ∀ kind, kind ∈ pushAll kinds ↔ kind ∈ kinds := by
  have hpush : ∀ (kinds pushed : List Advertised), pushed.Nodup →
      (kinds.foldl (fun security kind =>
        if security.contains kind then security else security ++ [kind]) pushed).Nodup ∧
      ∀ kind, kind ∈ kinds.foldl (fun security kind =>
        if security.contains kind then security else security ++ [kind]) pushed ↔
          kind ∈ pushed ∨ kind ∈ kinds := by
    intro kinds
    induction kinds with
    | nil => exact fun pushed hnodup => ⟨hnodup, fun kind => by simp⟩
    | cons first kinds ih =>
        intro pushed hnodup
        rw [List.foldl_cons]
        by_cases hheld : first ∈ pushed
        · rw [if_pos (List.contains_iff_mem.mpr hheld)]
          refine ⟨(ih pushed hnodup).1, fun kind => ?_⟩
          rw [(ih pushed hnodup).2, List.mem_cons]
          constructor
          · rintro (hpushed | hlater)
            · exact .inl hpushed
            · exact .inr (.inr hlater)
          · rintro (hpushed | rfl | hlater)
            · exact .inl hpushed
            · exact .inl hheld
            · exact .inr hlater
        · rw [if_neg (fun hcontains => hheld (List.contains_iff_mem.mp hcontains))]
          have hnext : (pushed ++ [first]).Nodup := by
            rw [List.nodup_append]
            refine ⟨hnodup, List.nodup_singleton first, ?_⟩
            rintro kind hkind other hother rfl
            rw [List.mem_singleton.mp hother] at hkind
            exact hheld hkind
          refine ⟨(ih _ hnext).1, fun kind => ?_⟩
          rw [(ih _ hnext).2, List.mem_append, List.mem_singleton, List.mem_cons, or_assoc]
  obtain ⟨hnodup, hmem⟩ := hpush kinds [] List.nodup_nil
  exact ⟨hnodup, fun kind => by simpa [pushAll] using hmem kind⟩

/-- An RSN element that does not stop short advertises what it says. -/
theorem akmSuites_tells (hshort : ¬StopsShort body) (kind : Advertised) :
    kind ∈ akmSuites body 2 ↔ Says body kind := by
  rcases hciphers : count body 6 with _ | ciphers
  · have hlisted : listed body = none := by rw [listed, hciphers, Option.bind_none]
    rw [akmSuites_uncounted hciphers]
    refine iff_of_false List.not_mem_nil ?_
    rintro (⟨hearly | hearly | ⟨_, hcount, -⟩, -⟩ | ⟨-, suite, hsuite, -⟩)
    · exact hshort (.inl hearly)
    · exact hshort (.inr (.inl hearly))
    · rw [hciphers] at hcount
      cases hcount
    · rw [wholeSuites_unlisted hlisted] at hsuite
      cases hsuite
  · rcases hsuites : count body (8 + ciphers * 4) with _ | suites
    · have hless : body.length < 10 + ciphers * 4 := by
        by_contra hlong
        have hsome := (count_isSome body (8 + ciphers * 4)).mpr (by omega)
        rw [hsuites] at hsome
        cases hsome
      have hearly : StopsEarly body := by
        by_contra hnot
        refine hshort (.inr (.inr ⟨ciphers, hciphers, hless, ?_⟩))
        exact fun hstops => hnot (.inr (.inr ⟨ciphers, hciphers, hstops⟩))
      rw [akmSuites_unlisted hciphers hsuites, List.mem_singleton]
      constructor
      · exact fun hkind => .inl ⟨hearly, hkind⟩
      · rintro (⟨-, hkind⟩ | ⟨hnot, -⟩)
        · exact hkind
        · exact absurd hearly hnot
    · have hlong := (count_isSome body (8 + ciphers * 4)).mp (by rw [hsuites]; rfl)
      have hearly : ¬StopsEarly body := by
        rintro (hstops | hstops | ⟨other, hcount, hstops⟩)
        · omega
        · omega
        · rw [hciphers, Option.some.injEq] at hcount
          omega
      have hlisted : listed body = some (10 + ciphers * 4, suites) := by
        rw [listed, hciphers, Option.bind_some, hsuites, Option.map_some]
      rw [akmSuites_listed hlisted, List.mem_filterMap]
      constructor
      · exact fun htold => .inr ⟨hearly, htold⟩
      · rintro (⟨hstops, -⟩ | ⟨-, htold⟩)
        · exact absurd hstops hearly
        · exact htold

/-- One that stops short does not. -/
theorem akmSuites_short (hshort : StopsShort body) :
    ¬∀ kind, kind ∈ akmSuites body 2 ↔ Says body kind := by
  intro htold
  have huncounted : StopsEarly body → body.length < 8 → False := by
    intro hearly hless
    have hcount : count body 6 = none := by
      rw [← Option.not_isSome_iff_eq_none, count_isSome]
      omega
    have hnone := (htold .enterprise).mpr (.inl ⟨hearly, rfl⟩)
    rw [akmSuites_uncounted hcount] at hnone
    cases hnone
  rcases hshort with htwo | hsix | ⟨ciphers, hciphers, hless, hstops⟩
  · exact huncounted (.inl htwo) (by omega)
  · exact huncounted (.inr (.inl hsix)) (by omega)
  · have hsuites : count body (8 + ciphers * 4) = none := by
      rw [← Option.not_isSome_iff_eq_none, count_isSome]
      omega
    have hlong := (count_isSome body 6).mp (by rw [hciphers]; rfl)
    have hlisted : listed body = none := by
      rw [listed, hciphers, Option.bind_some, hsuites, Option.map_none]
    have henterprise := (htold .enterprise).mp (by rw [akmSuites_unlisted hciphers hsuites]; simp)
    rcases henterprise with ⟨htwo | hsix | ⟨other, hcount, hearly⟩, -⟩ | ⟨-, suite, hsuite, -⟩
    · omega
    · omega
    · rw [hciphers, Option.some.injEq] at hcount
      omega
    · rw [wholeSuites_unlisted hlisted] at hsuite
      cases hsuite

end Suites

/-! ## Exactly which beacons -/

/-- The secondary channel's frequency does not overflow unless it is above the highest there is. -/
theorem secondary_isSome (ht : Option Bytes) (frequency : UInt32) :
    (secondary ht frequency).isSome = true ↔
      ¬(Above ht ∧ 2 ^ 32 - 20 ≤ frequency.toNat) := by
  unfold secondary
  split
  · rename_i first info rest
    split_ifs with hpair
    · have hpair' : info &&& 0b100 ≠ 0 := by simpa using hpair
      split
      · rename_i hoffset
        have habove : Above (some (first :: info :: rest)) := ⟨first, info, rest, rfl, hpair', hoffset⟩
        have htwenty : (20 : UInt32).toNat = 20 := rfl
        rw [Option.isSome_map, Checked.add_isSome, htwenty]
        constructor
        · rintro hless ⟨-, hhigh⟩
          omega
        · intro hnot
          by_contra hhigh
          exact hnot ⟨habove, by omega⟩
      · rename_i hoffset
        refine iff_of_true rfl ?_
        rintro ⟨⟨_, _, _, hht, -, hone⟩, -⟩
        cases hht
        rw [hoffset] at hone
        cases hone
      · rename_i hother _
        refine iff_of_true rfl ?_
        rintro ⟨⟨_, _, _, hht, -, hone⟩, -⟩
        cases hht
        exact hother hone
    · refine iff_of_true rfl ?_
      rintro ⟨⟨_, _, _, hht, hset, -⟩, -⟩
      cases hht
      exact hpair (by simpa using hset)
  · rename_i hshort
    refine iff_of_true rfl ?_
    rintro ⟨⟨first, info, rest, hht, -⟩, -⟩
    exact hshort first info rest hht

/-- An access point is read where the frequency of its secondary channel does not overflow, and
advertises what its elements do. -/
theorem read_isSome (bssid : Bytes) (frequency : UInt32) (signalMbm : Int) (capability : UInt16)
    (bytes : Bytes) :
    (AccessPoint.read bssid frequency signalMbm capability bytes).isSome =
      (secondary (find (elements bytes) HT_OPERATION) frequency).isSome := by
  unfold AccessPoint.read
  exact Option.isSome_map

/-- What an access point read advertises. -/
theorem read_security {bssid : Bytes} {frequency : UInt32} {signalMbm : Int} {capability : UInt16}
    {bytes : Bytes} {ap : AccessPoint}
    (hread : AccessPoint.read bssid frequency signalMbm capability bytes = some ap) :
    ap.security = security (elements bytes) capability := by
  unfold AccessPoint.read at hread
  obtain ⟨_, -, rfl⟩ := Option.map_eq_some_iff.mp hread
  rfl

/-- A beacon is read truthfully exactly where its secondary channel, if above its primary, is not
above the highest frequency there is, and its RSN element, if it has one, does not stop short. -/
theorem truthful_iff (bssid : Bytes) (frequency : UInt32) (signalMbm : Int) (capability : UInt16)
    (bytes : Bytes) :
    Truthful bssid frequency signalMbm capability bytes ↔
      ¬(Above (find (elements bytes) HT_OPERATION) ∧ 2 ^ 32 - 20 ≤ frequency.toNat) ∧
        ∀ body, find (elements bytes) RSN = some body → ¬StopsShort body := by
  rw [← secondary_isSome, ← read_isSome bssid frequency signalMbm capability bytes]
  constructor
  · rintro ⟨⟨ap, hread⟩, -, -, hsecurity⟩
    refine ⟨by rw [hread]; rfl, fun body hbody hshort => akmSuites_short hshort fun kind => ?_⟩
    rw [← (hsecurity ap body hread hbody).2 kind, read_security hread, security, hbody]
    exact ((pushAll_mem _).2 kind).symm
  · rintro ⟨hreturns, hshort⟩
    refine ⟨Option.isSome_iff_exists.mp hreturns, encoded_elements bytes,
      fun sent => prefix_elements, ?_⟩
    intro ap body hread hbody
    rw [read_security hread, security, hbody]
    obtain ⟨hnodup, hmem⟩ := pushAll_mem (akmSuites body 2)
    exact ⟨hnodup, fun kind => (hmem kind).trans (akmSuites_tells (hshort body hbody) kind)⟩

/-! ## An element that stops after its version -/

/-- An RSN element of its version alone. -/
def stopped : Bytes :=
  [RSN, 2, 1, 0]

/-- An HT operation element that puts the secondary channel above the primary. -/
def highest : Bytes :=
  [HT_OPERATION, 2, 36, 0b101]

/-- An element that stops after its version says `enterprise`, and is read as saying nothing; and the
secondary channel above the highest frequency overflows. -/
theorem not_truthful :
    ((AccessPoint.read [2, 0, 0, 0, 0, 1] 5180 (-6150) PRIVACY stopped).map
        fun ap => ap.security) = some [] ∧
      ¬Truthful [2, 0, 0, 0, 0, 1] 5180 (-6150) PRIVACY stopped ∧
      AccessPoint.read [2, 0, 0, 0, 0, 1] 4294967295 (-6150) 0 highest = none ∧
      ¬Truthful [2, 0, 0, 0, 0, 1] 4294967295 (-6150) 0 highest := by
  have hread : ((AccessPoint.read [2, 0, 0, 0, 0, 1] 5180 (-6150) PRIVACY stopped).map
      fun ap => ap.security) = some [] := by
    decide
  have hnone : AccessPoint.read [2, 0, 0, 0, 0, 1] 4294967295 (-6150) 0 highest = none := by
    decide
  refine ⟨hread, ?_, hnone, ?_⟩
  · rintro ⟨⟨ap, hap⟩, -, -, hsecurity⟩
    have htold := ((hsecurity ap [1, 0] hap (by decide)).2 .enterprise).mpr (.inl ⟨.inl rfl, rfl⟩)
    rw [hap, Option.map_some, Option.some.injEq] at hread
    rw [hread] at htold
    cases htold
  · rintro ⟨⟨ap, hap⟩, -, -, -⟩
    rw [hnone] at hap
    cases hap

end Bliti.Network.Observe
