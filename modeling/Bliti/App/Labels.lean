import Bliti.Library.Transition
import Mathlib.Data.List.Nodup
import Mathlib.Order.Bounds.Basic

/-!
# App - the list of labels

The page keeps a label for each board it has seen provisioned, and for each suffix the moment of the
latest result it added, until a week after the label was removed.  Every change reads the list again
just before it writes.  Moments of results are texts, compared as texts are.

Main results:

- Theorem `labels_remembered`: in every run of such changes no result is forgotten too soon.
-/

namespace Bliti.App.Labels

/-! ## The list -/

/-- A text of the page, by its units. -/
abbrev Text : Type := List UInt16

/-- How long the moment of a removed label is remembered. -/
def REMEMBERED : ℕ := 7 * 86400000

/-- What a label says of the board, in its payload's last four units. -/
def suffixOf (payload : Text) : Text :=
  payload.drop (payload.length - 4)

/-- A label, with the moment of the result it came from and when it was last printed. -/
structure Label (τ : Type) where
  payload : Text
  version : Text
  moment : τ
  printed : Option ℕ
deriving DecidableEq

/-- A result that is offered. -/
structure Result (τ : Type) where
  payload : Text
  version : Text
  moment : τ

/-- The latest moment added for a suffix, and until when it is remembered, which is nothing while the
label is held. -/
structure Entry (τ : Type) where
  moment : τ
  until_ : Option ℕ
deriving DecidableEq

/-- The list: its labels, and what was seen of each suffix. -/
structure Listed (τ : Type) where
  labels : List (Label τ)
  seen : Text → Option (Entry τ)

variable {τ : Type} [LinearOrder τ]

/-- The list as it stands, from what is stored, which the page alone has written. -/
def read (stored : Listed τ) (now : ℕ) : Listed τ where
  labels := stored.labels
  seen suffix := (stored.seen suffix).filter fun entry => entry.until_.all fun last => now < last

/-- What was seen with an entry set. -/
def seeing (seen : Text → Option (Entry τ)) (suffix : Text) (entry : Entry τ) :
    Text → Option (Entry τ) :=
  fun other => if other = suffix then some entry else seen other

/-- The list with a label added, and nothing where its moment is not later than the latest added for
its board. -/
def offered (list : Listed τ) (result : Result τ) : Option (Listed τ) :=
  let suffix := suffixOf result.payload
  if (list.seen suffix).any fun known => decide (result.moment ≤ known.moment) then none
  else some {
    labels := list.labels.filter (fun label => label.payload ≠ result.payload) ++
      [{ payload := result.payload, version := result.version, moment := result.moment
         printed := none }]
    seen := seeing list.seen suffix { moment := result.moment, until_ := none } }

/-- The list with each label of some payloads printed. -/
def printed (list : Listed τ) (payloads : List Text) (now : ℕ) : Listed τ where
  labels := list.labels.map fun label =>
    if label.payload ∈ payloads then { label with printed := some now } else label
  seen := list.seen

/-- The list without the label of a payload, whose moment is remembered for a week, and nothing where
there is no such label. -/
def removed (list : Listed τ) (payload : Text) (now : ℕ) : Option (Listed τ) :=
  match list.labels.find? fun each => each.payload = payload with
  | none => none
  | some label => some {
      labels := list.labels.eraseP fun each => each.payload = payload
      seen := seeing list.seen (suffixOf payload)
        { moment := label.moment, until_ := some (now + REMEMBERED) } }

/-- A change of the list. -/
inductive Op (τ : Type) where
  | offer (result : Result τ)
  | print (payloads : List Text)
  | remove (payload : Text)

/-- What a change makes of the list, and nothing where it leaves it as it was. -/
def Op.apply (list : Listed τ) (now : ℕ) : Op τ → Option (Listed τ)
  | offer result => offered list result
  | print payloads => some (printed list payloads now)
  | remove payload => removed list payload now

/-- Change what is stored: read it, change it, keep the result, which storage may refuse to. -/
def change (stored : Listed τ) (op : Op τ) (now : ℕ) (keeps : Bool) : Listed τ :=
  match op.apply (read stored now) now with
  | none => stored
  | some next => if keeps then next else stored

/-! ## The runs -/

/-- One tab changing the list in one step. -/
structure Step (τ : Type) where
  op : Op τ
  now : ℕ
  keeps : Bool

/-- What is stored, the results that were ever added by their suffixes, when labels were removed, and
the time of the last change. -/
structure World (τ : Type) where
  stored : Listed τ
  added : List (Text × τ)
  removals : List (Text × ℕ)
  clock : ℕ

/-- Nothing stored. -/
def World.empty : World τ where
  stored := { labels := [], seen := fun _ => none }
  added := []
  removals := []
  clock := 0

/-- The result a step adds. -/
def World.adds (w : World τ) (step : Step τ) : List (Text × τ) :=
  match step.op, step.op.apply (read w.stored step.now) step.now, step.keeps with
  | .offer result, some _, true => [(suffixOf result.payload, result.moment)]
  | _, _, _ => []

/-- The removal a step makes. -/
def World.removes (w : World τ) (step : Step τ) : List (Text × ℕ) :=
  match step.op, step.op.apply (read w.stored step.now) step.now, step.keeps with
  | .remove payload, some _, true => [(suffixOf payload, step.now)]
  | _, _, _ => []

/-- A step, at a time no earlier than that of the one before. -/
def World.take (w : World τ) (step : Step τ) : Option (World τ) :=
  if w.clock ≤ step.now then some {
    stored := change w.stored step.op step.now step.keeps
    added := w.added ++ w.adds step
    removals := w.removals ++ w.removes step
    clock := step.now }
  else none

/-- The changes of the list. -/
def system (τ : Type) [LinearOrder τ] : Transition.System (World τ) (Step τ) :=
  .ofTake (· = World.empty) World.take

/-- Whether a step removes no label whose suffix another label has, and adds no result that is not
later than one added before it was forgotten. -/
def World.Allowed (w : World τ) (step : Step τ) : Prop :=
  match step.op with
  | .offer result => (read w.stored step.now).seen (suffixOf result.payload) = none →
      ∀ moment, (suffixOf result.payload, moment) ∈ w.added → moment < result.moment
  | .print _ => True
  | .remove payload => (∃ label ∈ w.stored.labels, label.payload = payload) →
      ∀ label ∈ w.stored.labels, suffixOf label.payload = suffixOf payload →
        label.payload = payload

/-! ## What is remembered -/

/-- The moments that were ever added for a suffix. -/
def Added (added : List (Text × τ)) (suffix : Text) : Set τ :=
  { moment | (suffix, moment) ∈ added }

/-- What the list keeps to: its payloads are distinct, what it has seen of a suffix is the latest
moment added for it, which it has seen of every label and of every one removed less than a week ago,
and the latest result of a label's suffix is some label's. -/
structure Remembering (list : Listed τ) (added : List (Text × τ)) (removals : List (Text × ℕ))
    (clock : ℕ) : Prop where
  distinct : (list.labels.map Label.payload).Nodup
  past : ∀ removal ∈ removals, removal.2 ≤ clock
  latest : ∀ suffix entry, list.seen suffix = some entry →
    IsGreatest (Added added suffix) entry.moment
  held : ∀ label ∈ list.labels, ∃ entry, list.seen (suffixOf label.payload) = some entry ∧
    entry.until_ = none ∧ ∃ top ∈ list.labels,
      suffixOf top.payload = suffixOf label.payload ∧ top.moment = entry.moment
  lately : ∀ removal ∈ removals, clock < removal.2 + REMEMBERED → ∃ entry,
    list.seen removal.1 = some entry ∧
      ∀ last, entry.until_ = some last → removal.2 + REMEMBERED ≤ last

namespace Remembering

variable {list : Listed τ} {added : List (Text × τ)} {removals : List (Text × ℕ)} {clock : ℕ}

/-- What is read later is still remembered. -/
theorem read (h : Remembering list added removals clock) {now : ℕ} (hnow : clock ≤ now) :
    Remembering (Labels.read list now) added removals now where
  distinct := h.distinct
  past removal hmem := (h.past removal hmem).trans hnow
  latest suffix entry hentry := h.latest suffix entry (Option.filter_eq_some_iff.mp hentry).1
  held label hmem := by
    obtain ⟨entry, hentry, huntil, htop⟩ := h.held label hmem
    refine ⟨entry, Option.filter_eq_some_iff.mpr ⟨hentry, ?_⟩, huntil, htop⟩
    rw [huntil]
    rfl
  lately removal hmem hweek := by
    obtain ⟨entry, hentry, hlast⟩ := h.lately removal hmem (by omega)
    refine ⟨entry, Option.filter_eq_some_iff.mpr ⟨hentry, ?_⟩, hlast⟩
    cases huntil : entry.until_ with
    | none => rfl
    | some last =>
        have hlong := hlast last huntil
        exact decide_eq_true (by omega)

/-- What is left as it is, is still remembered. -/
theorem later (h : Remembering list added removals clock) {now : ℕ} (hnow : clock ≤ now) :
    Remembering list added removals now where
  distinct := h.distinct
  past removal hmem := (h.past removal hmem).trans hnow
  latest := h.latest
  held := h.held
  lately removal hmem hweek := h.lately removal hmem (by omega)

/-- A result that is added is the latest of its suffix. -/
theorem offered (h : Remembering list added removals clock) {result : Result τ} {next : Listed τ}
    (hnew : list.seen (suffixOf result.payload) = none →
      ∀ moment, (suffixOf result.payload, moment) ∈ added → moment < result.moment)
    (hoffer : Labels.offered list result = some next) :
    Remembering next (added ++ [(suffixOf result.payload, result.moment)]) removals clock := by
  unfold Labels.offered at hoffer
  dsimp only at hoffer
  split at hoffer
  · cases hoffer
  · rename_i hknown
    obtain rfl := Option.some.inj hoffer
    -- Every moment added before is earlier, whether its entry is still held or not.
    have hless : ∀ moment, (suffixOf result.payload, moment) ∈ added → moment < result.moment := by
      intro moment hmem
      cases hentry : list.seen (suffixOf result.payload) with
      | none => exact hnew hentry moment hmem
      | some known =>
          rw [hentry] at hknown
          have hlater : known.moment < result.moment := by simpa using hknown
          exact ((h.latest _ known hentry).2 hmem).trans_lt hlater
    refine ⟨?_, h.past, fun suffix entry hentry => ?_, fun label hmem => ?_,
      fun removal hmem hweek => ?_⟩
    · rw [List.map_append, List.nodup_append]
      refine ⟨h.distinct.sublist (List.Sublist.map _ List.filter_sublist), by simp, ?_⟩
      intro payload hin other hother
      obtain ⟨label, hlabel, rfl⟩ := List.mem_map.mp hin
      have hne := of_decide_eq_true (List.mem_filter.mp hlabel).2
      rw [List.mem_map] at hother
      obtain ⟨new, hnewMem, rfl⟩ := hother
      rw [List.mem_singleton.mp hnewMem]
      exact hne
    · unfold seeing at hentry
      dsimp only at hentry
      split at hentry
      · rename_i hsuffix
        obtain rfl := Option.some.inj hentry
        rw [hsuffix]
        refine ⟨List.mem_append_right _ (List.mem_singleton_self _), fun moment hmem => ?_⟩
        rcases List.mem_append.mp hmem with hbefore | hnow
        · exact (hless moment hbefore).le
        · rw [(Prod.mk.inj (List.mem_singleton.mp hnow)).2]
      · rename_i hsuffix
        have hsame : Added (added ++ [(suffixOf result.payload, result.moment)]) suffix =
            Added added suffix := by
          ext moment
          refine ⟨fun hmem => ?_, fun hmem => List.mem_append_left _ hmem⟩
          rcases List.mem_append.mp hmem with hbefore | hnow
          · exact hbefore
          · exact absurd (Prod.mk.inj (List.mem_singleton.mp hnow)).1 hsuffix
        rw [hsame]
        exact h.latest suffix entry hentry
    · rcases List.mem_append.mp hmem with hold | hnow
      · have hin := (List.mem_filter.mp hold).1
        by_cases hsuffix : suffixOf label.payload = suffixOf result.payload
        · refine ⟨_, if_pos hsuffix, rfl, _,
            List.mem_append_right _ (List.mem_singleton_self _), hsuffix.symm, rfl⟩
        · obtain ⟨entry, hentry, huntil, top, htop, hsame, hmoment⟩ := h.held label hin
          refine ⟨entry, (if_neg hsuffix).trans hentry, huntil, top,
            List.mem_append_left _ (List.mem_filter.mpr ⟨htop, decide_eq_true ?_⟩), hsame, hmoment⟩
          intro hpayload
          exact hsuffix (by rw [← hsame, hpayload])
      · rw [List.mem_singleton.mp hnow]
        exact ⟨_, if_pos rfl, rfl, _, List.mem_append_right _ (List.mem_singleton_self _), rfl, rfl⟩
    · by_cases hsuffix : removal.1 = suffixOf result.payload
      · exact ⟨_, if_pos hsuffix, by simp⟩
      · obtain ⟨entry, hentry, hlast⟩ := h.lately removal hmem hweek
        exact ⟨entry, (if_neg hsuffix).trans hentry, hlast⟩

/-- Printing changes nothing that is remembered. -/
theorem printed (h : Remembering list added removals clock) (payloads : List Text) (now : ℕ) :
    Remembering (Labels.printed list payloads now) added removals clock := by
  have hpayload : ∀ label : Label τ, (if label.payload ∈ payloads then
      { label with printed := some now } else label).payload = label.payload := by
    intro label
    split <;> rfl
  have hmoment : ∀ label : Label τ, (if label.payload ∈ payloads then
      { label with printed := some now } else label).moment = label.moment := by
    intro label
    split <;> rfl
  refine ⟨?_, h.past, h.latest, fun label hmem => ?_, h.lately⟩
  · have hsame : (Labels.printed list payloads now).labels.map Label.payload =
        list.labels.map Label.payload := by
      rw [Labels.printed, List.map_map]
      exact List.map_congr_left fun label _ => hpayload label
    rw [hsame]
    exact h.distinct
  · obtain ⟨before, hbefore, rfl⟩ := List.mem_map.mp hmem
    obtain ⟨entry, hentry, huntil, top, htop, hsuffix, hlatest⟩ := h.held before hbefore
    rw [hpayload]
    refine ⟨entry, hentry, huntil, _, List.mem_map_of_mem htop, ?_, ?_⟩
    · rw [hpayload]
      exact hsuffix
    · rw [hmoment]
      exact hlatest

/-- A label that is removed leaves the latest moment of its suffix behind, where it is the only one of
that suffix. -/
theorem removed (h : Remembering list added removals clock) {payload : Text} {next : Listed τ}
    (halone : (∃ label ∈ list.labels, label.payload = payload) →
      ∀ label ∈ list.labels, suffixOf label.payload = suffixOf payload → label.payload = payload)
    (hremove : Labels.removed list payload clock = some next) :
    Remembering next added (removals ++ [(suffixOf payload, clock)]) clock := by
  unfold Labels.removed at hremove
  cases hfind : list.labels.find? fun each => each.payload = payload with
  | none =>
      rw [hfind] at hremove
      cases hremove
  | some label =>
      rw [hfind] at hremove
      obtain rfl := Option.some.inj hremove
      have hin := List.mem_of_find?_eq_some hfind
      have hpayload : label.payload = payload := by simpa using List.find?_some hfind
      have hall := halone ⟨label, hin, hpayload⟩
      have hunique : ∀ other ∈ list.labels, other.payload = payload → other = label :=
        fun other hother hsame => List.inj_on_of_nodup_map h.distinct hother hin
          (hsame.trans hpayload.symm)
      -- The only label of its suffix is the one of its latest moment.
      have hgreatest : IsGreatest (Added added (suffixOf payload)) label.moment := by
        obtain ⟨entry, hentry, -, top, htop, hsuffix, hmoment⟩ := h.held label hin
        rw [hpayload] at hentry hsuffix
        have hsame := hunique top htop (hall top htop hsuffix)
        rw [← hsame, hmoment]
        exact h.latest _ entry hentry
      have hrest : ∀ other ∈ list.labels.eraseP fun each => each.payload = payload,
          other ∈ list.labels ∧ suffixOf other.payload ≠ suffixOf payload := by
        intro other hother
        have hmem := List.mem_of_mem_eraseP hother
        refine ⟨hmem, fun hsuffix => ?_⟩
        have hsame := hunique other hmem (hall other hmem hsuffix)
        have hnodup : list.labels.Nodup := h.distinct.of_map _
        obtain ⟨erased, before, after, -, his, hsplit, herase⟩ :=
          List.exists_of_eraseP (p := fun each : Label τ => decide (each.payload = payload)) hin
            (decide_eq_true hpayload)
        rw [hsplit, List.nodup_middle] at hnodup
        have herased : erased = label := hunique erased (by rw [hsplit]; simp) (of_decide_eq_true his)
        rw [herase, hsame, ← herased] at hother
        exact (List.nodup_cons.mp hnodup).1 hother
      refine ⟨h.distinct.sublist (List.Sublist.map _ List.eraseP_sublist), fun removal hmem => ?_,
        fun suffix entry hentry => ?_, fun other hother => ?_, fun removal hmem hweek => ?_⟩
      · rcases List.mem_append.mp hmem with hbefore | hnow
        · exact h.past removal hbefore
        · rw [List.mem_singleton.mp hnow]
      · unfold seeing at hentry
        dsimp only at hentry
        split at hentry
        · rename_i hsuffix
          obtain rfl := Option.some.inj hentry
          rw [hsuffix]
          exact hgreatest
        · exact h.latest suffix entry hentry
      · obtain ⟨hmem, hsuffix⟩ := hrest other hother
        obtain ⟨entry, hentry, huntil, top, htop, hsame, hmoment⟩ := h.held other hmem
        refine ⟨entry, (if_neg hsuffix).trans hentry, huntil, top, ?_, hsame, hmoment⟩
        refine (List.mem_eraseP_of_neg ?_).mpr htop
        intro hpayload
        exact hsuffix (by rw [← hsame, of_decide_eq_true hpayload])
      · by_cases hsuffix : removal.1 = suffixOf payload
        · refine ⟨_, if_pos hsuffix, fun last hlast => ?_⟩
          obtain rfl := Option.some.inj hlast
          rcases List.mem_append.mp hmem with hbefore | hnow
          · have hpast := h.past removal hbefore
            omega
          · rw [List.mem_singleton.mp hnow]
        · rcases List.mem_append.mp hmem with hbefore | hnow
          · obtain ⟨entry, hentry, hlast⟩ := h.lately removal hbefore hweek
            exact ⟨entry, (if_neg hsuffix).trans hentry, hlast⟩
          · exact absurd (congrArg Prod.fst (List.mem_singleton.mp hnow)) hsuffix

end Remembering

/-! ## What every run keeps -/

/-- A step that is allowed keeps what is remembered. -/
theorem World.remembering_take {w w' : World τ} {step : Step τ}
    (h : Remembering w.stored w.added w.removals w.clock) (hallowed : w.Allowed step)
    (htake : w.take step = some w') : Remembering w'.stored w'.added w'.removals w'.clock := by
  unfold World.take at htake
  split at htake
  · rename_i hnow
    obtain rfl := Option.some.inj htake
    have hread := h.read hnow
    have hleft := h.later hnow
    obtain ⟨op, now, keeps⟩ := step
    dsimp only at hread hleft ⊢
    unfold change World.adds World.removes
    cases happly : op.apply (read w.stored now) now with
    | none =>
        cases op <;> simpa [happly] using hleft
    | some next =>
        cases keeps with
        | false => cases op <;> simpa [happly] using hleft
        | true =>
            cases op with
            | offer result => simpa [happly] using hread.offered hallowed happly
            | print payloads =>
                obtain rfl := Option.some.inj happly
                simpa [Op.apply] using hread.printed payloads now
            | remove payload => simpa [happly] using hread.removed hallowed happly
  · cases htake

/-- Nothing is remembered where nothing is stored. -/
theorem World.remembering_empty : Remembering (World.empty (τ := τ)).stored [] [] 0 where
  distinct := List.nodup_nil
  past := by simp
  latest := by simp [World.empty]
  held := by simp [World.empty]
  lately := by simp

/-- In every run of allowed changes what is remembered is kept. -/
theorem remembering_of_reachable {w : World τ}
    (hreach : ((system τ).guarded World.Allowed).Reachable w) :
    Remembering w.stored w.added w.removals w.clock := by
  induction hreach with
  | start hstart =>
      rw [show _ = World.empty from hstart]
      exact World.remembering_empty
  | next _ hnext ih => exact World.remembering_take ih hnext.1 hnext.2

/-- Whether a label of a suffix is held, or one was removed less than a week ago. -/
def World.Recent (w : World τ) (suffix : Text) (now : ℕ) : Prop :=
  (∃ label ∈ w.stored.labels, suffixOf label.payload = suffix) ∨
    ∃ removal ∈ w.removals, removal.1 = suffix ∧ now < removal.2 + REMEMBERED

/-- What the list is to be at a time: its payloads are distinct, what it has seen of each suffix that
is recent is the latest moment ever added for it, a result that was added changes nothing while its
suffix is recent, and a result later than any added is added unprinted, as the one label of its
payload. -/
structure World.Kept (w : World τ) (now : ℕ) : Prop where
  distinct : (w.stored.labels.map Label.payload).Nodup
  seen : ∀ suffix, w.Recent suffix now → ∃ entry,
    (read w.stored now).seen suffix = some entry ∧ IsGreatest (Added w.added suffix) entry.moment
  again : ∀ result, (suffixOf result.payload, result.moment) ∈ w.added →
    w.Recent (suffixOf result.payload) now → offered (read w.stored now) result = none
  later : ∀ result : Result τ,
    (∀ moment, (suffixOf result.payload, moment) ∈ w.added → moment < result.moment) →
    ∃ next label, offered (read w.stored now) result = some next ∧ label ∈ next.labels ∧
      label.payload = result.payload ∧ label.moment = result.moment ∧ label.printed = none ∧
      ∀ other ∈ next.labels, other.payload = result.payload → other = label

/-- A result is added where it is later than what is seen of its suffix. -/
theorem offered_later (list : Listed τ) {result : Result τ}
    (hlater : ∀ known, list.seen (suffixOf result.payload) = some known →
      known.moment < result.moment) :
    ∃ next label, offered list result = some next ∧ label ∈ next.labels ∧
      label.payload = result.payload ∧ label.moment = result.moment ∧ label.printed = none ∧
      ∀ other ∈ next.labels, other.payload = result.payload → other = label := by
  have hnot : ¬ ((list.seen (suffixOf result.payload)).any fun known =>
      decide (result.moment ≤ known.moment)) = true := by
    cases hseen : list.seen (suffixOf result.payload) with
    | none => exact Bool.false_ne_true
    | some known => simpa using hlater known hseen
  refine ⟨_, _, if_neg hnot, List.mem_append_right _ (List.mem_singleton_self _), rfl, rfl, rfl,
    fun other hmem hpayload => ?_⟩
  rcases List.mem_append.mp hmem with hold | hnow
  · exact absurd hpayload (of_decide_eq_true (List.mem_filter.mp hold).2)
  · exact List.mem_singleton.mp hnow

/-- In every run of allowed changes the list is what it is to be, at any time after. -/
theorem labels_remembered {w : World τ}
    (hreach : ((system τ).guarded World.Allowed).Reachable w) {now : ℕ} (hnow : w.clock ≤ now) :
    w.Kept now := by
  have h := (remembering_of_reachable hreach).read hnow
  have hseen : ∀ suffix, w.Recent suffix now → ∃ entry,
      (read w.stored now).seen suffix = some entry ∧
        IsGreatest (Added w.added suffix) entry.moment := by
    rintro suffix (⟨label, hmem, rfl⟩ | ⟨removal, hmem, rfl, hweek⟩)
    · obtain ⟨entry, hentry, -⟩ := h.held label hmem
      exact ⟨entry, hentry, h.latest _ entry hentry⟩
    · obtain ⟨entry, hentry, -⟩ := h.lately removal hmem hweek
      exact ⟨entry, hentry, h.latest _ entry hentry⟩
  refine ⟨h.distinct, hseen, fun result hadded hrecent => ?_, fun result hlater => ?_⟩
  · obtain ⟨entry, hentry, hgreatest⟩ := hseen _ hrecent
    refine if_pos ?_
    rw [hentry]
    exact decide_eq_true (hgreatest.2 hadded)
  · exact offered_later _ fun known hknown => hlater _ (h.latest _ known hknown).1

/-! ## Two boards of one suffix -/

/-- The labels of two boards whose payloads end alike. -/
def payloadOf (board : UInt16) : Text := [board, 0x57, 0x58, 0x59, 0x5A]

/-- The result of a board. -/
def resultOf (board : UInt16) (moment : ℕ) : Result ℕ where
  payload := payloadOf board
  version := [0x31]
  moment := moment

/-- A label is added for a board, then a later one for another, the other's is printed, and the first
board's is removed. -/
def forgetting : List (Step ℕ) := [
  { op := .offer (resultOf 0x41 10), now := 1, keeps := true },
  { op := .offer (resultOf 0x42 20), now := 2, keeps := true },
  { op := .print [payloadOf 0x42], now := 3, keeps := true },
  { op := .remove (payloadOf 0x41), now := 4, keeps := true }]

/-- Once the first board's label is removed, the second's result is taken for a later one although it
was added and its label is held, and marks the printed label unprinted. -/
theorem labels_forgotten : ∃ w next, (system ℕ).Reachable w ∧
    (suffixOf (payloadOf 0x42), 20) ∈ w.added ∧
    (w.stored.labels.map fun label => (label.payload, label.printed)) = [(payloadOf 0x42, some 3)] ∧
    (read w.stored 5).seen (suffixOf (payloadOf 0x42)) =
      some { moment := 10, until_ := some (4 + REMEMBERED) } ∧
    offered (read w.stored 5) (resultOf 0x42 20) = some next ∧
    (next.labels.map fun label => (label.payload, label.printed)) = [(payloadOf 0x42, none)] := by
  have hstart : (system ℕ).Reachable World.empty := .start rfl
  have hrun : ∀ w, Transition.System.run World.take World.empty forgetting = some w →
      (system ℕ).Reachable w :=
    fun w hw => hstart.of_run (fun _ _ _ _ htake => htake) hw
  refine ⟨_, _, hrun _ rfl, ?_, rfl, rfl, rfl, rfl⟩
  decide

/-- A run of one label added, and added again, is of allowed changes. -/
theorem labels_remembered_once :
    ((World.empty (τ := ℕ)).take
      { op := .offer (resultOf 0x41 10), now := 1, keeps := true }).any
        (fun w => decide (w.clock = 1)) = true ∧
    ∀ w, (World.empty (τ := ℕ)).take
      { op := .offer (resultOf 0x41 10), now := 1, keeps := true } = some w → w.Kept w.clock := by
  refine ⟨rfl, fun w htake => labels_remembered ?_ le_rfl⟩
  refine .next (.start rfl) ⟨?_, htake⟩
  intro _ moment hmem
  cases hmem

end Bliti.App.Labels
