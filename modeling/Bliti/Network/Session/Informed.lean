import Bliti.Network.Session.Open

/-!
# The configuration session - what a client knows

What the client of a session has been told, against the snapshot the session
last synced with.  A sync remembers capabilities as told before it has sent
them, and a report as sent though a configuration was sent after it; both are
dropped where the candidates' states are unknown.  The runs in which neither
happens keep every client informed.

Main results:

- Theorem `forthcoming_informed`: the runs whose syncs are all forthcoming keep
  the client informed.
-/

namespace Bliti.Network.Session

open Channel.Config

variable {φ : Type}

/-! ## What a client has been told -/

/-- What a client has been told: the configuration last sent, the capabilities
last carried, and the state last sent since that configuration. -/
structure Client (φ : Type) where
  configuration : Option (Json.Map φ)
  capabilities : Option (Json.Map φ)
  state : Option (Reported φ)

namespace Client

/-- A client told nothing. -/
def new : Client φ where
  configuration := none
  capabilities := none
  state := none

/-- A client told a message. -/
def receive (c : Client φ) : Sent φ → Client φ
  | .configuration document capabilities =>
      { configuration := some document
        capabilities := capabilities.or c.capabilities
        state := none }
  | .state reported capabilities =>
      { c with capabilities := capabilities.or c.capabilities, state := some reported }
  | _ => c

/-- A client told all that was sent. -/
def told (sent : List (Sent φ)) : Client φ :=
  sent.foldl receive new

@[simp]
theorem told_append (sent more : List (Sent φ)) :
    told (sent ++ more) = more.foldl receive (told sent) :=
  List.foldl_append

variable [BEq φ]

/-- A client knows a snapshot whose candidates' states are known: it was sent a
state since the last configuration, equal to the snapshot's, the snapshot's
document, and its capabilities. -/
structure Knows (c : Client φ) (snapshot : Snapshot φ) (busy : Bool)
    (attachments : List (Json φ)) : Prop where
  state : ∃ reported, c.state = some reported ∧
    (reported == Open.report snapshot busy attachments) = true
  configuration : c.configuration = some snapshot.held.document
  capabilities : ∃ capabilities, c.capabilities = some capabilities ∧
    (capabilities == snapshot.capabilities) = true

end Client

/-- The client of a session that last synced with known states knows what it
synced with. -/
def Informed [BEq φ] (w : Serving φ) : Prop :=
  ∀ snapshot busy attachments, w.synced = some (snapshot, busy) →
    snapshot.attachments = some attachments →
    (Client.told w.sent).Knows snapshot busy attachments

/-! ## What a session remembers of its client -/

/-- What a session remembers having sent is what its client was told, next to
the snapshot published. -/
structure Remembers (o : Open φ) (c : Client φ) (snapshot : Snapshot φ) : Prop where
  told : ∀ capabilities, o.told = some capabilities → c.capabilities = some capabilities
  reported : ∀ reported, c.state = some reported → o.reported = some reported
  revision : ∀ revision, o.revision = some revision → revision ≤ snapshot.held.revision ∧
    (revision = snapshot.held.revision → c.configuration = some snapshot.held.document)

/-- A sync that sends no configuration drops nothing its client should be told:
where states are unknown there are no capabilities to tell, and where the client
is owed a state since a configuration, what it would carry differs from what was
last sent. -/
def Open.Forthcoming [BEq φ] (o : Open φ) (c : Client φ) (snapshot : Snapshot φ) (busy : Bool) : Prop :=
  match snapshot.attachments with
  | none => (o.untold snapshot).isSome = false
  | some attachments => c.state = none →
      (o.untold snapshot).isSome = true ∨
        (o.reported == some (Open.report snapshot busy attachments)) = false

namespace Remembers

variable {o : Open φ} {c : Client φ} {snapshot : Snapshot φ}

/-- A session that has sent nothing remembers nothing. -/
theorem new (c : Client φ) (hstate : c.state = none) : Remembers .new c snapshot where
  told _ htold := by cases htold
  reported _ hreported := by rw [hstate] at hreported; cases hreported
  revision _ hrevision := by cases hrevision

/-- Forgetting the capabilities told leaves the rest remembered. -/
theorem forget (hremembers : Remembers o c snapshot) :
    Remembers { o with told := none } c snapshot where
  told _ htold := by cases htold
  reported := hremembers.reported
  revision := hremembers.revision

/-- A session whose revision is the snapshot's has sent its document. -/
theorem configuration_of_current (hremembers : Remembers o c snapshot)
    {resend : Bool} (hconfigures : o.configures snapshot resend = false) :
    c.configuration = some snapshot.held.document ∧
      o.revision = some snapshot.held.revision := by
  simp only [Open.configures, Bool.or_eq_false_iff, bne_eq_false_iff_eq] at hconfigures
  exact ⟨(hremembers.revision _ hconfigures.2).2 rfl, hconfigures.2⟩

variable [BEq φ]

/-- The capabilities of a snapshot a client was not told of are the snapshot's. -/
theorem untold_cases (o : Open φ) (snapshot : Snapshot φ) :
    (o.untold snapshot = none ∧ ∃ capabilities, o.told = some capabilities ∧
      (capabilities == snapshot.capabilities) = true) ∨
    o.untold snapshot = some snapshot.capabilities := by
  unfold Open.untold
  rcases htold : o.told with none | capabilities
  · right
    rfl
  · by_cases hequal : (capabilities == snapshot.capabilities) = true
    · left
      simp [hequal]
    · right
      simp [hequal]

variable [ReflBEq φ]

/-- A sync that sends the configuration leaves its session remembering what the
client was told, and the client knowing the snapshot where states are known. -/
theorem sync_configured (hremembers : Remembers o c snapshot) {busy resend : Bool}
    (hconfigures : o.configures snapshot resend = true) :
    Remembers (o.sync snapshot busy resend).1
        ((o.sync snapshot busy resend).2.foldl Client.receive c) snapshot ∧
      ∀ attachments, snapshot.attachments = some attachments →
        ((o.sync snapshot busy resend).2.foldl Client.receive c).Knows
          snapshot busy attachments := by
  have htold := hremembers.told
  have huntold := untold_cases o snapshot
  rcases hattachments : snapshot.attachments with none | attachments
  · -- The configuration alone: the client is owed a state.
    refine ⟨?_, by simp⟩
    rcases huntold with ⟨hnone, capabilities, hknown, hequal⟩ | hsome <;>
      constructor <;> simp_all [Open.sync, Client.receive]
  · refine ⟨?_, ?_⟩
    · rcases huntold with ⟨hnone, capabilities, hknown, hequal⟩ | hsome <;>
        constructor <;> simp_all [Open.sync, Client.receive]
    · intro entries hentries
      cases hentries
      rcases huntold with ⟨hnone, capabilities, hknown, hequal⟩ | hsome <;>
        constructor <;> simp_all [Open.sync, Client.receive]

theorem sync_unconfigured (hremembers : Remembers o c snapshot) {busy resend : Bool}
    (hconfigures : o.configures snapshot resend = false)
    (hforthcoming : o.Forthcoming c snapshot busy) :
    Remembers (o.sync snapshot busy resend).1
        ((o.sync snapshot busy resend).2.foldl Client.receive c) snapshot ∧
      ∀ attachments, snapshot.attachments = some attachments →
        ((o.sync snapshot busy resend).2.foldl Client.receive c).Knows
          snapshot busy attachments := by
  obtain ⟨hconfiguration, hrevision⟩ := hremembers.configuration_of_current hconfigures
  have htold := hremembers.told
  have hreported := hremembers.reported
  have huntold := untold_cases o snapshot
  rcases hattachments : snapshot.attachments with none | attachments
  · -- Nothing is sent, and nothing was there to tell.
    have hnothing : (o.untold snapshot).isSome = false := by
      simpa [Open.Forthcoming, hattachments] using hforthcoming
    have hsync : o.sync snapshot busy resend = (o, []) := by
      simp [Open.sync, hconfigures, hattachments, hnothing]
    rw [hsync]
    exact ⟨hremembers, by simp⟩
  · simp only [Open.Forthcoming, hattachments] at hforthcoming
    by_cases hsends : ((o.untold snapshot).isSome ||
        o.reported != some (Open.report snapshot busy attachments)) = true
    · -- The state is sent, with what capabilities there are to tell.
      have hsync : o.sync snapshot busy resend =
          ({ told := if (o.untold snapshot).isSome then some snapshot.capabilities else o.told
             revision := o.revision
             reported := some (Open.report snapshot busy attachments) },
            [.state (Open.report snapshot busy attachments) (o.untold snapshot)]) := by
        simp [Open.sync, hconfigures, hattachments, hsends]
      rw [hsync]
      refine ⟨?_, ?_⟩
      · rcases huntold with ⟨hnone, capabilities, hknown, hequal⟩ | hsome <;>
          constructor <;> simp_all [Client.receive]
      · intro entries hentries
        cases hentries
        rcases huntold with ⟨hnone, capabilities, hknown, hequal⟩ | hsome <;>
          constructor <;> simp_all [Client.receive]
    · -- Nothing is sent: the client was sent this very state.
      have hsync : o.sync snapshot busy resend = (o, []) := by
        simp only [Bool.or_eq_true, not_or, Bool.not_eq_true] at hsends
        simp [Open.sync, hconfigures, hattachments, hsends]
      simp only [bne, Bool.or_eq_true, not_or, Bool.not_eq_true, Bool.not_eq_false'] at hsends
      rw [hsync]
      refine ⟨hremembers, ?_⟩
      intro entries hentries
      cases hentries
      rcases hstate : c.state with none | reported
      · simp_all
      · rcases huntold with ⟨hnone, capabilities, hknown, hequal⟩ | hsome
        · constructor <;> simp_all
        · simp_all

/-- A forthcoming sync leaves its session remembering what the client was told,
and the client knowing the snapshot where states are known. -/
theorem sync (hremembers : Remembers o c snapshot) {busy resend : Bool}
    (hforthcoming : o.configures snapshot resend = false → o.Forthcoming c snapshot busy) :
    Remembers (o.sync snapshot busy resend).1
        ((o.sync snapshot busy resend).2.foldl Client.receive c) snapshot ∧
      ∀ attachments, snapshot.attachments = some attachments →
        ((o.sync snapshot busy resend).2.foldl Client.receive c).Knows
          snapshot busy attachments := by
  rcases hconfigures : o.configures snapshot resend with _ | _
  · exact hremembers.sync_unconfigured hconfigures (hforthcoming hconfigures)
  · exact hremembers.sync_configured hconfigures

end Remembers

/-! ## Runs whose syncs are forthcoming -/

/-- A step whose sync, where it has one that may send no configuration, is
forthcoming to the client. -/
def Serving.Forthcoming [BEq φ] (w : Serving φ) : Step φ → Prop
  | .changed busy => ∀ o, w.session = some o →
      o.configures w.published false = false →
        o.Forthcoming (Client.told w.sent) w.published busy
  | _ => True

/-- The invariant of the runs whose syncs are forthcoming: what is published is
the configuration held or an earlier one, and the session remembers what its
client was told. -/
structure Serving.Recalls [BEq φ] (w : Serving φ) : Prop where
  current : w.published.held.revision ≤ w.state.revision ∧
    (w.published.held.revision = w.state.revision →
      w.published.held.document = w.state.held.raw)
  session : ∀ o, w.session = some o → Remembers o (Client.told w.sent) w.published
  silent : w.session = none → w.sent = []
  informed : Informed w

namespace Serving

variable [BEq φ] {w : Serving φ}

/-- What is published is at the revision of the state, and carries its document
where it carries one at all. -/
theorem publish_current (hrecalls : w.Recalls) (backend : Backend φ) {state : State φ}
    (states : Option (List (Json φ)))
    (hstate : (state.revision = w.state.revision ∧ state.held.raw = w.state.held.raw) ∨
      state.revision = w.state.revision + 1) :
    (publish w.published (snapshot backend state states)).held.revision = state.revision ∧
      (publish w.published (snapshot backend state states)).held.document = state.held.raw := by
  obtain ⟨hle, hdocument⟩ := hrecalls.current
  unfold publish
  split
  · rename_i hequal
    have hrevision : w.published.held.revision = state.revision :=
      Snapshot.revision_of_beq hequal
    rcases hstate with ⟨hsame, hraw⟩ | hnext
    · exact ⟨hrevision, by rw [hdocument (by omega), hraw]⟩
    · omega
  · exact ⟨rfl, rfl⟩

/-- A session goes on remembering its client as the configurator publishes. -/
theorem publishing_recalls (hrecalls : w.Recalls) {backend : Backend φ} {state : State φ}
    {states : Option (List (Json φ))}
    (hstate : (state.revision = w.state.revision ∧ state.held.raw = w.state.held.raw) ∨
      state.revision = w.state.revision + 1) :
    (w.publishing backend state states).Recalls := by
  obtain ⟨hle, hdocument⟩ := hrecalls.current
  obtain ⟨hrevision, hraw⟩ := publish_current hrecalls backend states hstate
  refine ⟨⟨by simp [publishing, hrevision], fun _ => hraw⟩, ?_, hrecalls.silent, hrecalls.informed⟩
  intro o hsession
  have hremembers := hrecalls.session o hsession
  refine ⟨hremembers.told, hremembers.reported, ?_⟩
  intro revision hsent
  obtain ⟨hsentLe, hsentDocument⟩ := hremembers.revision revision hsent
  simp only [publishing]
  rw [hrevision, hraw]
  refine ⟨by omega, ?_⟩
  intro hcurrent
  rcases hstate with ⟨hsame, hheld⟩ | hnext
  · -- Nothing was saved since the configuration was sent.
    rw [hsentDocument (by omega), hdocument (by omega), hheld]
  · omega

/-- The configurator before any session recalls what it published. -/
theorem start_recalls (hstart : w.start) : w.Recalls := by
  obtain ⟨_, _, _, _, _, _, _, hpublished, hsession, hsent, hsynced⟩ := hstart
  refine ⟨?_, ?_, fun _ => hsent, ?_⟩
  · rw [hpublished]
    exact ⟨Nat.le_refl _, fun _ => rfl⟩
  · simp [hsession]
  · simp [Informed, hsynced]

variable [ReflBEq φ]

/-- A forthcoming sync leaves the client informed. -/
theorem syncing_recalls (hrecalls : w.Recalls) {o : Open φ} {before : List (Sent φ)}
    {busy resend : Bool} (hremembers : Remembers o (Client.told (w.sent ++ before)) w.published)
    (hforthcoming : o.configures w.published resend = false →
      o.Forthcoming (Client.told (w.sent ++ before)) w.published busy) :
    (w.syncing o before busy resend).Recalls := by
  obtain ⟨hremembered, hknows⟩ := hremembers.sync hforthcoming
  rw [← Client.told_append] at hremembered
  refine ⟨hrecalls.current, ?_, ?_, ?_⟩
  · intro o' hsession
    cases hsession
    exact hremembered
  · intro hnone
    cases hnone
  · intro snapshot busy' attachments hsynced hattachments
    cases hsynced
    have hknown := hknows attachments hattachments
    rwa [← Client.told_append] at hknown

/-- Every step keeps the invariant, where its sync is forthcoming. -/
theorem take_recalls [ToString φ] {w' : Serving φ} (hrecalls : w.Recalls) {step : Step φ}
    (hforthcoming : w.Forthcoming step) (htake : w.take step = some w') : w'.Recalls := by
  cases step with
  | propose backend states raw recorded =>
      simp only [take] at htake
      split at htake
      · rename_i state document replacing hsave
        cases htake
        obtain ⟨proposal, -, -, hholding, -, -⟩ := State.save_ok hsave
        refine publishing_recalls hrecalls (Or.inr ?_)
        rw [hholding]
        rfl
      · cases htake
        exact publishing_recalls hrecalls (Or.inl ⟨rfl, rfl⟩)
  | settled backend states verdict =>
      simp only [take, Option.some.injEq] at htake
      rw [← htake]
      obtain ⟨hrevision, hheld⟩ := w.state.settle_held verdict
      exact publishing_recalls hrecalls (Or.inl ⟨hrevision, by rw [hheld]⟩)
  | observed backend states =>
      simp only [take, Option.some.injEq] at htake
      rw [← htake]
      exact publishing_recalls hrecalls (Or.inl ⟨rfl, rfl⟩)
  | opened busy =>
      simp only [take] at htake
      split at htake
      · rename_i hsession
        cases htake
        refine syncing_recalls hrecalls (Remembers.new _ ?_) (by simp [Open.configures])
        rw [hrecalls.silent hsession]
        rfl
      · cases htake
  | changed busy =>
      simp only [take, Option.map_eq_some_iff] at htake
      obtain ⟨o, hsession, rfl⟩ := htake
      refine syncing_recalls hrecalls ?_ ?_
      · simpa using hrecalls.session o hsession
      · simpa using hforthcoming o hsession
  | configure busy =>
      simp only [take, Option.map_eq_some_iff] at htake
      obtain ⟨o, hsession, rfl⟩ := htake
      refine syncing_recalls hrecalls ?_ (by simp [Open.configures])
      simpa using (hrecalls.session o hsession).forget
  | refused invalid busy =>
      simp only [take, Option.map_eq_some_iff] at htake
      obtain ⟨o, hsession, rfl⟩ := htake
      refine syncing_recalls hrecalls ?_ (by simp [Open.configures])
      simpa [Client.receive] using hrecalls.session o hsession
  | answered message =>
      have hsilent : ∀ o, w.session = some o → Client.receive (Client.told w.sent) message =
          Client.told w.sent → { w with sent := w.sent ++ [message] } = w' → w'.Recalls := by
        rintro o hsession hreceive rfl
        refine ⟨hrecalls.current, ?_, by simp [hsession], ?_⟩
        · simpa [hreceive] using hrecalls.session
        · simpa [Informed, hreceive] using hrecalls.informed
      cases message with
      | cannotAct act invalid =>
          simp only [take, Option.map_eq_some_iff] at htake
          obtain ⟨o, hsession, hw'⟩ := htake
          exact hsilent o hsession rfl hw'
      | networks accessPoints =>
          simp only [take, Option.map_eq_some_iff] at htake
          obtain ⟨o, hsession, hw'⟩ := htake
          exact hsilent o hsession rfl hw'
      | spectrum spectrum =>
          simp only [take, Option.map_eq_some_iff] at htake
          obtain ⟨o, hsession, hw'⟩ := htake
          exact hsilent o hsession rfl hw'
      | configuration document capabilities => cases htake
      | state reported capabilities => cases htake
      | cannotConfigure invalid => cases htake

end Serving

/-- In the runs whose syncs are all forthcoming, the client of a session that
has synced knows what the device holds. -/
theorem forthcoming_informed [BEq φ] [ReflBEq φ] [ToString φ] {w : Serving φ}
    (hreach : ((serving φ).guarded Serving.Forthcoming).Reachable w) : Informed w := by
  have hrecalls : w.Recalls := by
    refine hreach.invariant ?_ ?_
    · intro w hstart
      exact Serving.start_recalls hstart
    · intro w step w' _ hrecalls htaken
      exact Serving.take_recalls hrecalls htaken.1 htaken.2
  exact hrecalls.informed

/-! ## A configuration put back -/

/-- A dynamic candidate on a wired interface. -/
def dynamicOn (interface : String) : Json Nat :=
  .object [("enabled", .bool true), ("interface", .string interface),
    ("kind", .string "wired-dynamic"), ("label", .string interface), ("verify", .bool true)]

/-- A document of dynamic candidates. -/
def dynamicDocument (interfaces : List String) : Json.Map Nat :=
  [("attachments", .array (interfaces.map dynamicOn))]

/-- A device with two wired interfaces, whose backend refuses nothing more. -/
def twoPorts : Backend Nat where
  capabilities := [("document", .object [("attachments", .object [("kind", .object
    [("wired-dynamic", .object
      [("interface", .array [.string "eth0", .string "eth1"])])])])])]
  check _ := .ok ()

/-- The entries of candidates that are all up. -/
def allUp (candidates : Nat) : List (Json Nat) :=
  List.replicate candidates (.object [("is", .string "up")])

/-- What was read of a start that recorded nothing. -/
def bothPorts : State Nat where
  held := {
    raw := dynamicDocument ["eth0", "eth1"]
    document := {
      attachments := ["eth0", "eth1"].map fun interface => {
        label := interface
        enabled := true
        verify := true
        nameservers := []
        kind := .wiredDynamic interface }
      hotspot := none
      regulatoryDomain := none } }
  outcome := .applied
  failure := none
  replaced := none
  revision := 0

/-- That device once started, holding a candidate on each interface. -/
def started : Serving Nat where
  state := bothPorts
  published := snapshot twoPorts bothPorts (some (allUp 2))
  session := none
  sent := []
  synced := none

/-- It starts so where nothing was recorded. -/
theorem started_start : started.start :=
  ⟨.ok none, dynamicDocument ["eth0", "eth1"], bothPorts, twoPorts, some (allUp 2), rfl,
    Or.inl rfl, rfl, rfl, rfl, rfl⟩

/-- A session is opened; one candidate is taken out and put back before the
session looks again, and the backend catches up with each a while later. -/
def putBack : List (Step Nat) :=
  [.opened false,
    .propose twoPorts (some (allUp 2)) (dynamicDocument ["eth0"]) (.ok ()),
    .observed twoPorts (some (allUp 1)),
    .propose twoPorts (some (allUp 1)) (dynamicDocument ["eth0", "eth1"]) (.ok ()),
    .changed false,
    .settled twoPorts (some (allUp 1)) (.ok ()),
    .observed twoPorts (some (allUp 2)),
    .changed false]

/-- The configuration put back is sent with no state after it: what the state
would carry is what was sent before the candidate was taken out. -/
theorem putBack_not_informed :
    ¬ ∀ w : Serving Nat, (serving Nat).Reachable w → Informed w := by
  intro hinformed
  obtain ⟨w, hrun, hstate, snapshot, busy, attachments, hsynced, hattachments⟩ :
      ∃ w, Transition.System.run Serving.take started putBack = some w ∧
        (Client.told w.sent).state = none ∧ ∃ snapshot busy attachments,
          w.synced = some (snapshot, busy) ∧ snapshot.attachments = some attachments :=
    ⟨_, rfl, rfl, _, _, _, rfl, rfl⟩
  have hreach : (serving Nat).Reachable w :=
    Transition.System.Reachable.of_run (.start started_start) (fun _ _ _ _ htake => htake) hrun
  obtain ⟨reported, hsome, -⟩ :=
    (hinformed w hreach snapshot busy attachments hsynced hattachments).state
  rw [hstate] at hsome
  cases hsome

/-- A device that has started is informed of once a session opens. -/
theorem forthcoming_informed_opened : ∃ w, started.take (.opened false) = some w ∧
    w.synced.isSome = true ∧ Informed w :=
  ⟨_, rfl, rfl, forthcoming_informed
    (.next (a := .opened false) (.start started_start) ⟨trivial, rfl⟩)⟩

end Bliti.Network.Session
