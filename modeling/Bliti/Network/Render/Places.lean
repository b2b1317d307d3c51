import Bliti.Text.Hex
import Bliti.Text.Lines
import Bliti.Network.Render

/-!
# Rendering - where each file goes

Each file rendered has a place: the network it is of, the interface it is for, or
what it configures.  Where the backends read from directories of their own, no
two places are at one path, and each is one that is owned.
-/

namespace Bliti.Network.Render

open Channel.Config

variable {φ : Type}

/-! ## Network files -/

namespace Iwd

/-- Whether a character stands in the name of a file as it does in the SSID. -/
def isPlain (c : Char) : Bool :=
  c.isAlphanum || c == ' ' || c == '_' || c == '-'

/-- No two SSIDs have their files under one name. -/
theorem encodeSsid_injective : Function.Injective encodeSsid := by
  have hmixed : ∀ ssid other : String, (ssid.toList.all fun c => isPlain c) = true →
      ssid ≠ "=" ++ Text.hexBytes other := by
    intro ssid other hplain hsame
    have hsign : '=' ∈ ssid.toList := by
      rw [hsame, String.toList_append]
      exact List.mem_append_left _ (by decide)
    exact absurd (List.all_eq_true.mp hplain _ hsign) (by decide)
  intro ssid other hsame
  unfold encodeSsid at hsame
  split at hsame
  · rename_i hplain
    split at hsame
    · exact hsame
    · exact absurd hsame (hmixed ssid other hplain)
  · split at hsame
    · rename_i hplain
      exact absurd hsame.symm (hmixed other ssid hplain)
    · exact Text.hexBytes_injective (String.append_right_inj _ |>.mp hsame)

/-- An SSID's file is not hidden. -/
theorem head_encodeSsid {ssid : String} (hssid : isSsid ssid = true) (suffix : String) :
    (encodeSsid ssid ++ suffix).toList.head? ≠ some '.' := by
  unfold encodeSsid
  split
  · rename_i hplain
    cases hchars : ssid.toList with
    | nil =>
        obtain rfl : ssid = "" := String.toList_injective hchars
        exact absurd hssid (by decide)
    | cons c rest =>
        have hc : isPlain c = true := List.all_eq_true.mp hplain c (by simp [hchars])
        rw [String.toList_append, hchars]
        intro hdot
        cases hdot
        exact absurd hc (by decide)
  · rw [String.toList_append, String.toList_append, List.append_assoc]
    simp

end Iwd

/-! ## Places -/

/-- What a file rendered is for: a network, a link, its resolvers, an access point, iwd itself,
or the kernel's regulatory domain. -/
inductive Place where
  | network (ssid : String) (enterprise : Bool)
  | link (interface : String)
  | delegate (interface : String)
  | accessPoint (interface : String)
  | config
  | regdom
deriving DecidableEq, Repr

/-- Where the file of a place is. -/
def Place.path (paths : Paths) : Place → Path
  | network ssid enterprise =>
      paths.iwdState.join (Iwd.encodeSsid ssid ++ if enterprise then ".8021x" else ".psk")
  | link interface => Networkd.path paths interface
  | delegate interface =>
      paths.resolved.join (Networkd.PREFIX ++ interface ++ ".dns-delegate")
  | accessPoint interface => paths.hostapdConf interface
  | config => paths.iwdConfig
  | regdom => paths.modprobe

/-- The directories the backends read. -/
def Paths.directories (paths : Paths) : List Path :=
  [paths.networkd, paths.iwdState, paths.resolved, paths.hostapd]

/-- Each backend reads from a place of its own. -/
structure Paths.Apart (paths : Paths) : Prop where
  directories : paths.directories.Nodup
  config : ∀ dir ∈ paths.directories, paths.iwdConfig.parent ≠ some dir
  regdom : ∀ dir ∈ paths.directories, paths.modprobe.parent ≠ some dir
  single : paths.iwdConfig ≠ paths.modprobe

/-- The places of a device are apart. -/
theorem Paths.system_apart : Paths.system.Apart where
  directories := by decide
  config := by decide
  regdom := by decide
  single := by decide

/-- Entries of one directory are at one path only under one name. -/
theorem Path.join_injective (dir : Path) : Function.Injective dir.join := by
  intro name other hsame
  have hname := congrArg Path.fileName hsame
  simpa using hname

/-- A network's file is named for its SSID and for whether it is an enterprise's. -/
theorem Iwd.name_injective {ssid other : String} {enterprise business : Bool}
    (hsame : encodeSsid ssid ++ (if enterprise then ".8021x" else ".psk") =
      encodeSsid other ++ (if business then ".8021x" else ".psk")) :
    ssid = other ∧ enterprise = business := by
  have hlast : ∀ (name : String) (enterprise : Bool),
      (name ++ (if enterprise then ".8021x" else ".psk")).toList.getLast? =
        some (if enterprise then 'x' else 'k') := by
    intro name enterprise
    cases enterprise <;> simp
  have hends := congrArg (fun name : String => name.toList.getLast?) hsame
  simp only [hlast, Option.some.injEq] at hends
  have hkind : enterprise = business := by
    cases enterprise <;> cases business <;> first | rfl | exact absurd hends (by decide)
  subst hkind
  exact ⟨encodeSsid_injective (String.append_left_inj _ |>.mp hsame), rfl⟩

/-- The directory a place is an entry of. -/
def Place.directory (paths : Paths) : Place → Option Path
  | network _ _ => some paths.iwdState
  | link _ => some paths.networkd
  | delegate _ => some paths.resolved
  | accessPoint _ => some paths.hostapd
  | config => paths.iwdConfig.parent
  | regdom => paths.modprobe.parent

/-- A place is an entry of its directory. -/
@[simp]
theorem Place.parent_path (paths : Paths) (place : Place) :
    (place.path paths).parent = place.directory paths := by
  cases place <;>
    simp [path, directory, Networkd.path, Paths.hostapdConf]

/-- No two places are at one path. -/
theorem Place.path_injective {paths : Paths} (hapart : paths.Apart) :
    Function.Injective (Place.path paths) := by
  intro place other hsame
  have hparents := congrArg Path.parent hsame
  rw [parent_path, parent_path] at hparents
  have hdirs := hapart.directories
  have hconfig := hapart.config
  have hregdom := hapart.regdom
  simp only [Paths.directories, List.nodup_cons, List.mem_cons, List.not_mem_nil, or_false,
    not_or] at hdirs
  simp only [Paths.directories, List.forall_mem_cons] at hconfig hregdom
  cases place with
  | network ssid enterprise =>
      cases other with
      | network ssid' enterprise' =>
          obtain ⟨rfl, rfl⟩ := Iwd.name_injective (Path.join_injective _ hsame)
          rfl
      | _ => simp_all [directory]
  | link interface =>
      cases other with
      | link interface' =>
          have hname := Path.join_injective _ hsame
          rw [String.append_left_inj, String.append_right_inj] at hname
          rw [hname]
      | _ => simp_all [directory]
  | delegate interface =>
      cases other with
      | delegate interface' =>
          have hname := Path.join_injective _ hsame
          rw [String.append_left_inj, String.append_right_inj] at hname
          rw [hname]
      | _ => simp_all [directory]
  | accessPoint interface =>
      cases other with
      | accessPoint interface' =>
          have hname := Path.join_injective _ hsame
          rw [String.append_left_inj] at hname
          rw [hname]
      | _ => simp_all [directory]
  | config =>
      cases other with
      | config => rfl
      | regdom => exact absurd hsame hapart.single
      | _ => simp_all [directory]
  | regdom =>
      cases other with
      | regdom => rfl
      | config => exact absurd hsame.symm hapart.single
      | _ => simp_all [directory]

/-! ## Ownership -/

/-- Whether an interface's name is one of its own among files that are not hidden. -/
def Visible (interface : String) : Prop :=
  interface.isEmpty = false ∧ Text.startsWith interface "." = false

instance (interface : String) : Decidable (Visible interface) :=
  inferInstanceAs (Decidable (_ ∧ _))

/-- What the name of a place has to be for it to be one of ours. -/
def Place.Named : Place → Prop
  | network ssid _ => isSsid ssid = true
  | accessPoint interface => Visible interface
  | _ => True

/-- The interface of an access point's configuration is read back from where it is. -/
theorem hostapdInterface_hostapdConf (paths : Paths) {interface : String}
    (hvisible : Visible interface) :
    paths.hostapdInterface (paths.hostapdConf interface) = some interface := by
  rw [Paths.hostapdInterface, Paths.hostapdConf, Path.parent_join, if_neg (not_not.mpr rfl),
    Path.fileName_join, Option.bind_some, Text.beforeTail_append, Option.filter_eq_some_iff]
  exact ⟨rfl, by simp [hvisible.1, hvisible.2]⟩

/-- A name that starts and ends as a link's file does is owned. -/
theorem Networkd.owns_name (interface : String) :
    owns (PREFIX ++ interface ++ ".network") = true ∧
      ownsDelegate (PREFIX ++ interface ++ ".dns-delegate") = true := by
  have hstarts : ∀ suffix : String,
      Text.startsWith (PREFIX ++ interface ++ suffix) PREFIX = true := by
    intro suffix
    rw [Text.startsWith, List.isPrefixOf_iff_prefix, String.toList_append, String.toList_append,
      List.append_assoc]
    exact List.prefix_append _ _
  have hends : ∀ suffix : String,
      Text.endsWith (PREFIX ++ interface ++ suffix) suffix = true := by
    intro suffix
    rw [Text.endsWith, List.isSuffixOf_iff_suffix, String.toList_append]
    exact List.suffix_append _ _
  exact ⟨by rw [owns, hstarts, hends]; rfl, by rw [ownsDelegate, hstarts, hends]; rfl⟩

/-- The name of a network's file is owned. -/
theorem Iwd.owns_name {ssid : String} (hssid : isSsid ssid = true) (enterprise : Bool) :
    owns (encodeSsid ssid ++ if enterprise then ".8021x" else ".psk") = true := by
  have hhidden : ∀ suffix : String,
      Text.startsWith (encodeSsid ssid ++ suffix) "." = false := by
    intro suffix
    have hhead := head_encodeSsid hssid suffix
    rw [Text.startsWith]
    cases hchars : (encodeSsid ssid ++ suffix).toList with
    | nil => rfl
    | cons c rest =>
        rw [hchars] at hhead
        have hc : ¬ '.' = c := fun hdot => hhead (by rw [← hdot]; rfl)
        simp [List.isPrefixOf, hc]
  have hends : ∀ suffix : String, Text.endsWith (encodeSsid ssid ++ suffix) suffix = true := by
    intro suffix
    rw [Text.endsWith, List.isSuffixOf_iff_suffix, String.toList_append]
    exact List.suffix_append _ _
  rw [owns, hhidden, Bool.not_false, Bool.true_and, List.any_eq_true]
  cases enterprise with
  | true => exact ⟨".8021x", by decide, hends _⟩
  | false => exact ⟨".psk", by decide, hends _⟩

/-- A place is one of ours. -/
theorem Place.owned {paths : Paths} {place : Place} (hnamed : place.Named) :
    paths.owns (place.path paths) = true := by
  unfold Paths.owns
  split
  · rfl
  · rename_i hneither
    cases place with
    | network ssid enterprise =>
        simp [path, Path.parent_join, Path.fileName_join, Iwd.owns_name hnamed enterprise]
    | link interface =>
        simp [path, Networkd.path, (Networkd.owns_name interface).1]
    | delegate interface => simp [path, (Networkd.owns_name interface).2]
    | accessPoint interface =>
        have hinterface := hostapdInterface_hostapdConf paths hnamed
        simp only [path]
        rw [hinterface]
        simp [Paths.hostapdConf]
    | config => exact absurd (.inl rfl) hneither
    | regdom => exact absurd (.inr rfl) hneither

end Bliti.Network.Render
