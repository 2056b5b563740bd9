/-
Conformance/Proofs/Assertions.lean

When assertions fail.

An assertion looks for the project's root, reads the configuration there, and
evaluates rules under it.  Each of the three can be said without the search that
finds it:

* the root is the innermost workspace around the package, or the package itself
  (`IsRoot`), and the search from the inside out ends there (`isRoot_rootFrom`);
* the configuration is what the one file that counts says, or what holds if
  nothing is said (`Governs`), and it is missing only if that file is spoiled
  (`configIn_eq_ok_iff`, `exists_configIn_error_iff`);
* rules are broken together if one that is switched on is broken alone
  (`passed_ofRules_iff`).

Files are whatever the disk holds, and texts whatever the readers of manifests
and configurations make of them (`Readers`); nothing is asked of either.
-/
import Conformance.Assertion
import Conformance.CodeBase.Model
import Conformance.Proofs.Folders
import Conformance.Proofs.Isolation

namespace Conformance

/-! ### Files in folders -/

namespace Disk

variable {folder name text : String}

/-- There is a file under a name in a folder. -/
def HasFile (disk : Disk) (folder : List (List Char)) (name : String) : Prop :=
  ∃ stored, disk.inFolder folder name = .ok stored ∧ stored ≠ .folder

/-- There is a file under a name in a folder, and its text can be read. -/
def HasText (disk : Disk) (folder : List (List Char)) (name text : String) : Prop :=
  ∃ bytes, disk.inFolder folder name = .ok (.file bytes)
    ∧ String.fromUTF8? bytes = some text

theorem isFile_iff_ne {stored : Stored} : stored.isFile = true ↔ stored ≠ .folder := by
  cases stored <;> simp [Stored.isFile]

theorem text_eq_ok_iff {stored : Stored} :
    stored.text = .ok text ↔
      ∃ bytes, stored = .file bytes ∧ String.fromUTF8? bytes = some text := by
  cases stored with
  | file bytes =>
    rcases hbytes : String.fromUTF8? bytes with - | t
    · simp [Stored.text, hbytes]
    · simp [Stored.text, hbytes]
  | lockedFile => simp [Stored.text]
  | folder => simp [Stored.text]

variable (disk : Disk) (h : Path.isAbsolute folder = true)
  (hname : '/' ∉ name.toList)

include h hname

theorem isFile_join_iff :
    disk.isFile (Path.join folder name) = true ↔ disk.HasFile (Path.names folder) name := by
  rw [isFile, disk.stored_join h hname, HasFile]
  rcases disk.inFolder (Path.names folder) name with error | stored
  · simp
  · simp [isFile_iff_ne]

theorem readText_join_iff :
    disk.readText (Path.join folder name) = .ok text
      ↔ disk.HasText (Path.names folder) name text := by
  rw [readText, disk.stored_join h hname, HasText]
  rcases disk.inFolder (Path.names folder) name with error | stored
  · simp [bind, Except.bind]
  · show stored.text = .ok text ↔ _
    rw [text_eq_ok_iff]
    simp

end Disk

/-! ### The project's root -/

namespace Readers

variable {r : Readers} {disk : Disk} {package root : List (List Char)}

/-- The folder's manifest can be read and has a section for the whole
workspace. -/
def IsWorkspace (r : Readers) (disk : Disk) (folder : List (List Char)) : Prop :=
  ∃ text, disk.HasText folder "Cargo.toml" text
    ∧ ∃ table, r.manifest? text = some table ∧ ∃ value, ("workspace", value) ∈ table

theorem hasWorkspace_iff {folder : String} (h : Path.isAbsolute folder = true) :
    r.hasWorkspace disk folder = true ↔ r.IsWorkspace disk (Path.names folder) := by
  have hread : ∀ text, disk.readText (Path.join folder "Cargo.toml") = .ok text
      ↔ disk.HasText (Path.names folder) "Cargo.toml" text :=
    fun _ => disk.readText_join_iff h (by decide)
  have hkey : ∀ table : Toml.Table, (table.lookup "workspace").isSome = true
      ↔ ∃ value, ("workspace", value) ∈ table := by
    intro table
    rw [List.lookup_isSome_iff]
    simp
  unfold hasWorkspace IsWorkspace
  simp only [← hread]
  rcases disk.readText (Path.join folder "Cargo.toml") with error | text
  · simp
  · simp [Option.any_eq_true, hkey]

/-- The root of a package's project: the innermost workspace around the package,
or the package itself if there is none. -/
inductive IsRoot (r : Readers) (disk : Disk) (package : List (List Char)) :
    List (List Char) → Prop
  | workspace {root : List (List Char)} :
      root <+: package → r.IsWorkspace disk root →
      (∀ folder, folder <+: package → r.IsWorkspace disk folder → folder <+: root) →
      IsRoot r disk package root
  | alone :
      (∀ folder, folder <+: package → ¬ r.IsWorkspace disk folder) →
      IsRoot r disk package package

/-- A project has one root. -/
theorem IsRoot.unique {root' : List (List Char)} (h : r.IsRoot disk package root)
    (h' : r.IsRoot disk package root') : root = root' := by
  cases h with
  | workspace hroot hworkspace hinner =>
    cases h' with
    | workspace hroot' hworkspace' hinner' =>
      have hle := hinner' root hroot hworkspace
      have hge := hinner root' hroot' hworkspace'
      exact hle.eq_of_length_le hge.length_le
    | alone hnone => exact absurd hworkspace (hnone root hroot)
  | alone hnone =>
    cases h' with
    | workspace hroot' hworkspace' _ => exact absurd hworkspace' (hnone root' hroot')
    | alone _ => rfl

/-- The ancestors of an absolute path go from the inside out. -/
theorem pairwise_ancestors {folder : String} (h : Path.isAbsolute folder = true) :
    (Path.ancestors folder).Pairwise fun inner outer =>
      Path.names outer <+: Path.names inner := by
  rw [← List.pairwise_map (R := fun inner outer => outer <+: inner),
    Path.map_names_ancestors h]
  induction Path.names folder using List.reverseRecOn with
  | nil => simp
  | append_singleton ns n ih =>
    have hinits : (ns ++ [n]).inits.reverse = (ns ++ [n]) :: ns.inits.reverse := by
      simp [List.inits_append]
    rw [hinits, List.pairwise_cons]
    refine ⟨fun outer houter => ?_, ih⟩
    rw [List.mem_reverse, List.mem_inits] at houter
    exact houter.trans (List.prefix_append ns [n])

/-- In a list in order, whatever passes a test comes after what is found first. -/
theorem rel_of_find?_eq_some {α : Type} {R : α → α → Prop} {p : α → Bool}
    {as : List α} {a b : α} (hrefl : ∀ a, R a a) (h : as.Pairwise R)
    (hfind : as.find? p = some a) (hb : b ∈ as) (hp : p b = true) : R a b := by
  induction as with
  | nil => cases hb
  | cons c as ih =>
    rw [List.pairwise_cons] at h
    rw [List.find?_cons] at hfind
    rcases hc : p c with - | -
    · rw [hc] at hfind
      rcases List.mem_cons.mp hb with rfl | hb
      · rw [hp] at hc
        cases hc
      · exact ih h.2 hfind hb
    · rw [hc] at hfind
      obtain rfl : c = a := Option.some.inj hfind
      rcases List.mem_cons.mp hb with rfl | hb
      · exact hrefl b
      · exact h.1 b hb

/-- The search from the inside out ends at the root. -/
theorem isRoot_rootFrom (r : Readers) (disk : Disk) {folder : String}
    (h : Path.isAbsolute folder = true) :
    r.IsRoot disk (Path.names folder) (Path.names (r.rootFrom disk folder)) := by
  -- the ancestors are all that the package lies in
  have hmem : ∀ outer, outer <+: Path.names folder ↔
      ∃ f ∈ Path.ancestors folder, Path.names f = outer := by
    intro outer
    rw [← List.mem_map, Path.map_names_ancestors h, List.mem_reverse, List.mem_inits]
  have hiff : ∀ f ∈ Path.ancestors folder,
      (r.hasWorkspace disk f = true ↔ r.IsWorkspace disk (Path.names f)) :=
    fun f hf => hasWorkspace_iff (Path.isAbsolute_of_mem_ancestors h hf)
  unfold rootFrom
  rcases hfind : (Path.ancestors folder).find? (r.hasWorkspace disk) with - | root
  · refine .alone fun outer houter hworkspace => ?_
    obtain ⟨f, hf, rfl⟩ := (hmem outer).mp houter
    exact List.find?_eq_none.mp hfind f hf ((hiff f hf).mpr hworkspace)
  · have hroot := List.mem_of_find?_eq_some hfind
    have hworkspace := List.find?_some hfind
    refine .workspace ((hmem _).mpr ⟨root, hroot, rfl⟩)
      ((hiff root hroot).mp hworkspace) ?_
    intro other hother hworkspace'
    obtain ⟨f, hf, rfl⟩ := (hmem other).mp hother
    have hsorted := pairwise_ancestors h
    have hfound : r.hasWorkspace disk f = true := (hiff f hf).mpr hworkspace'
    exact rel_of_find?_eq_some
      (R := fun inner outer => Path.names outer <+: Path.names inner)
      (fun _ => List.prefix_rfl) hsorted hfind hf hfound

theorem isAbsolute_rootFrom (r : Readers) (disk : Disk) {folder : String}
    (h : Path.isAbsolute folder = true) :
    Path.isAbsolute (r.rootFrom disk folder) = true := by
  unfold rootFrom
  rcases hfind : (Path.ancestors folder).find? (r.hasWorkspace disk) with - | root
  · exact h
  · exact Path.isAbsolute_of_mem_ancestors h (List.mem_of_find?_eq_some hfind)

/-! ### The project's configuration -/

/-- The file in a folder that its configuration is read from. -/
inductive IsSource (disk : Disk) (root : List (List Char)) : String → Prop
  | plain : disk.HasFile root "archgate.toml" → IsSource disk root "archgate.toml"
  | hidden : ¬ disk.HasFile root "archgate.toml" →
      disk.HasFile root ".archgate.toml" → IsSource disk root ".archgate.toml"

/-- The configuration in a folder: the one that can be read from its file, or one
that says nothing if there is no file. -/
inductive Governs (r : Readers) (disk : Disk) (root : List (List Char)) : Config → Prop
  | source {name text : String} {config : Config} :
      IsSource disk root name → disk.HasText root name text →
      r.config? text = some config → Governs r disk root config
  | default : ¬ disk.HasFile root "archgate.toml" →
      ¬ disk.HasFile root ".archgate.toml" → Governs r disk root {}

/-- The folder's configuration file cannot be read, or it is no configuration. -/
def IsSpoiled (r : Readers) (disk : Disk) (root : List (List Char)) : Prop :=
  ∃ name, IsSource disk root name
    ∧ ∀ text, disk.HasText root name text → r.config? text = none

theorem exists_isSource_or (disk : Disk) (root : List (List Char)) :
    (∃ name, IsSource disk root name)
      ∨ ¬ disk.HasFile root "archgate.toml" ∧ ¬ disk.HasFile root ".archgate.toml" := by
  by_cases hplain : disk.HasFile root "archgate.toml"
  · exact Or.inl ⟨_, .plain hplain⟩
  · by_cases hhidden : disk.HasFile root ".archgate.toml"
    · exact Or.inl ⟨_, .hidden hplain hhidden⟩
    · exact Or.inr ⟨hplain, hhidden⟩

theorem IsSource.not_mem {name : String} (hs : IsSource disk root name) :
    '/' ∉ name.toList := by
  cases hs <;> decide

/-! #### Reading a file -/

theorem configAt_eq_ok_iff {path : String} {c : Config} :
    r.configAt disk path = .ok c
      ↔ ∃ text, disk.readText path = .ok text ∧ r.config? text = some c := by
  unfold configAt
  rcases disk.readText path with error | text
  · simp
  · rcases hread : r.config? text with - | c'
    · simp [config, hread]
    · simp [config, hread]

theorem exists_configAt_error_iff {path : String} :
    (∃ error, r.configAt disk path = .error error)
      ↔ ∀ text, disk.readText path = .ok text → r.config? text = none := by
  unfold configAt
  rcases disk.readText path with error | text
  · simp
  · rcases hread : r.config? text with - | c
    · simp [config, hread]
    · simp [config, hread]

/-! #### Finding the file -/

variable {folder : String} (h : Path.isAbsolute folder = true)

include h

/-- The file that counts is found. -/
theorem findIn?_of_isSource {name : String}
    (hs : IsSource disk (Path.names folder) name) :
    Config.findIn? disk folder = some (Path.join folder name) := by
  have hfile : ∀ name, '/' ∉ name.toList →
      (disk.isFile (Path.join folder name) = true
        ↔ disk.HasFile (Path.names folder) name) :=
    fun _ hname => disk.isFile_join_iff h hname
  cases hs with
  | plain hplain => exact List.find?_cons_of_pos ((hfile _ (by decide)).mpr hplain)
  | hidden hplain hhidden =>
    have hskip := List.find?_cons_of_neg (mt (hfile _ (by decide)).mp hplain)
      (l := [Path.join folder ".archgate.toml"])
    exact hskip.trans (List.find?_cons_of_pos ((hfile _ (by decide)).mpr hhidden))

theorem findIn?_eq_none (hplain : ¬ disk.HasFile (Path.names folder) "archgate.toml")
    (hhidden : ¬ disk.HasFile (Path.names folder) ".archgate.toml") :
    Config.findIn? disk folder = none := by
  refine List.find?_eq_none.mpr ?_
  rw [List.forall_mem_map]
  intro name hname
  rcases List.mem_cons.mp hname with rfl | hname
  · exact mt (disk.isFile_join_iff h (by decide)).mp hplain
  · obtain rfl := List.mem_singleton.mp hname
    exact mt (disk.isFile_join_iff h (by decide)).mp hhidden

/-- What is read in a folder is the configuration there. -/
theorem configIn_eq_ok_iff {c : Config} :
    r.configIn disk folder = .ok c ↔ r.Governs disk (Path.names folder) c := by
  constructor
  · intro hok
    rcases exists_isSource_or disk (Path.names folder) with ⟨name, hs⟩ | ⟨hplain, hhidden⟩
    · rw [configIn, findIn?_of_isSource h hs] at hok
      obtain ⟨text, htext, hread⟩ := configAt_eq_ok_iff.mp hok
      exact .source hs ((disk.readText_join_iff h hs.not_mem).mp htext) hread
    · rw [configIn, findIn?_eq_none h hplain hhidden] at hok
      obtain rfl := Except.ok.inj hok
      exact .default hplain hhidden
  · rintro (⟨hs, htext, hread⟩ | ⟨hplain, hhidden⟩)
    · rw [configIn, findIn?_of_isSource h hs]
      apply configAt_eq_ok_iff.mpr
      exact ⟨_, (disk.readText_join_iff h hs.not_mem).mpr htext, hread⟩
    · rw [configIn, findIn?_eq_none h hplain hhidden]

/-- Reading fails only for a spoiled file. -/
theorem exists_configIn_error_iff :
    (∃ error, r.configIn disk folder = .error error)
      ↔ r.IsSpoiled disk (Path.names folder) := by
  constructor
  · rintro ⟨error, herror⟩
    rcases exists_isSource_or disk (Path.names folder) with ⟨name, hs⟩ | ⟨hplain, hhidden⟩
    · rw [configIn, findIn?_of_isSource h hs] at herror
      refine ⟨name, hs, fun text htext => ?_⟩
      apply exists_configAt_error_iff.mp ⟨error, herror⟩
      exact (disk.readText_join_iff h hs.not_mem).mpr htext
    · rw [configIn, findIn?_eq_none h hplain hhidden] at herror
      cases herror
  · rintro ⟨name, hs, hnone⟩
    rw [configIn, findIn?_of_isSource h hs]
    apply exists_configAt_error_iff.mpr
    intro text htext
    exact hnone text ((disk.readText_join_iff h hs.not_mem).mp htext)

end Readers

/-! ### Assertions -/

namespace Project

/-- Rules that are broken are reported. -/
theorem assertUnder_ok (config : Config) (rules : List Rule) (m : CodeModel) :
    assertUnder (.ok config) rules m
      = if (Evaluation.ofRules rules config m).passed then .ok ()
        else .error (.rulesBroken (Evaluation.ofRules rules config m)) := rfl

theorem exists_assertUnder_ok_error_iff (config : Config) (rules : List Rule)
    (m : CodeModel) :
    (∃ failure, assertUnder (.ok config) rules m = .error failure)
      ↔ ∃ r ∈ rules, config.isEnabled r.key = true
        ∧ ∃ error, r.check m config = .error error := by
  have hbroken : ∀ r : Rule, (∃ error, r.check m config = .error error)
      ↔ ¬ r.check m config = .ok () := by
    intro r
    rcases r.check m config with error | -
    · simp
    · simp
  have hpassed := Evaluation.passed_ofRules_iff rules config m
  rw [assertUnder_ok]
  simp only [hbroken]
  split
  · rename_i hp
    simpa using hpassed.mp hp
  · rename_i hp
    simpa using mt hpassed.mpr hp

theorem exists_assertUnder_configIn_error_iff (r : Readers) (disk : Disk)
    {folder : String} (h : Path.isAbsolute folder = true) (rules : List Rule)
    (m : CodeModel) :
    (∃ failure, assertUnder (r.configIn disk folder) rules m = .error failure)
      ↔ r.IsSpoiled disk (Path.names folder)
        ∨ ∃ config, r.Governs disk (Path.names folder) config
          ∧ ∃ rule ∈ rules, config.isEnabled rule.key = true
            ∧ ∃ error, rule.check m config = .error error := by
  rw [← Readers.exists_configIn_error_iff h]
  simp only [← Readers.configIn_eq_ok_iff h]
  rcases r.configIn disk folder with error | config
  · simp [assertUnder]
  · rw [exists_assertUnder_ok_error_iff]
    simp

/-- **Assertions fail exactly when they should.**  Let manifests and
configurations be read in whatever way.  A package has one root: the innermost
workspace among the folders it lies in, or the package itself.  An assertion fails
if and only if the configuration file in the root cannot be read or is no
configuration, or a rule that is switched on does not hold under the configuration
there.  In the latter case it says what came of all rules under that
configuration. -/
theorem assertRules_fails_iff {p : Project} {package : String}
    (hpackage : p.packageFolder = some package)
    (habsolute : Path.isAbsolute package = true) (rules : List Rule) (m : CodeModel) :
    (∃! root, p.readers.IsRoot p.disk (Path.names package) root)
    ∧ ∀ root, p.readers.IsRoot p.disk (Path.names package) root →
      ((∃ failure, p.assertRules rules m = .error failure) ↔
        p.readers.IsSpoiled p.disk root
        ∨ ∃ config, p.readers.Governs p.disk root config
          ∧ ∃ r ∈ rules, config.isEnabled r.key = true
            ∧ ∃ error, r.check m config = .error error)
      ∧ ∀ config, p.readers.Governs p.disk root config →
        ∀ failure, p.assertRules rules m = .error failure →
          failure.message = (Evaluation.ofRules rules config m).report := by
  have hroot := p.readers.isRoot_rootFrom p.disk habsolute
  have hfolder := p.readers.isAbsolute_rootFrom p.disk habsolute
  have hassert : p.assertRules rules m
      = assertUnder (p.readers.configIn p.disk (p.readers.rootFrom p.disk package))
        rules m := by
    rw [assertRules, config, Project.root, hpackage]
  refine ⟨⟨_, hroot, fun root h => h.unique hroot⟩, fun root h => ?_⟩
  obtain rfl := hroot.unique h
  rw [hassert]
  refine ⟨exists_assertUnder_configIn_error_iff p.readers p.disk hfolder rules m, ?_⟩
  intro config hgoverns failure hfailure
  rw [(Readers.configIn_eq_ok_iff hfolder).mpr hgoverns, assertUnder_ok] at hfailure
  split at hfailure
  · cases hfailure
  · obtain rfl := Except.error.inj hfailure
    rfl

/-- What the hidden file of `nested` says. -/
def nestedConfig : Config where
  rules := [("no-classes-should-use-junit-4", { enabled := some false })]

/-- A package two folders into a workspace.  The manifest in between must not be
read, and a hidden file in the workspace switches one rule off.  The readers know
the two texts there are. -/
def nested : Project where
  disk :=
    (((Disk.ofFolder "/w/a/b").write "/w/Cargo.toml" (.file "[workspace]".toUTF8)).write
      "/w/a/Cargo.toml" .lockedFile).write "/w/.archgate.toml"
      (.file "[rules.no-classes-should-use-junit-4]\nenabled = false".toUTF8)
  currentFolder := "/"
  packageFolder := some "/w/a/b"
  readers :=
    { manifest? := fun text =>
        if text = "[workspace]" then some [("workspace", .table [])] else none
      config? := fun text =>
        if text = "[rules.no-classes-should-use-junit-4]\nenabled = false" then
          some nestedConfig
        else none }

/-- There is no code in the package, so the other rule has nothing to hold of. -/
theorem nested_assertRules_fails :
    nested.readers.IsRoot nested.disk (Path.names "/w/a/b") (Path.names "/w")
    ∧ nested.readers.Governs nested.disk (Path.names "/w") nestedConfig
    ∧ ∃ failure, nested.assertRules Catalog.standardRules CodeBase.empty.model
        = .error failure
      ∧ failure.message
        = (Evaluation.ofRules Catalog.standardRules nestedConfig
            CodeBase.empty.model).report := by
  have hfound : nested.readers.rootFrom nested.disk "/w/a/b" = "/w" := by decide +kernel
  have hread : nested.readers.configIn nested.disk "/w" = .ok nestedConfig := by
    decide +kernel
  have hroot := nested.readers.isRoot_rootFrom nested.disk
    (show Path.isAbsolute "/w/a/b" = true by decide)
  rw [hfound] at hroot
  have hgoverns := (Readers.configIn_eq_ok_iff (by decide)).mp hread
  obtain ⟨-, hfails⟩ := assertRules_fails_iff (p := nested) rfl (by decide)
    Catalog.standardRules CodeBase.empty.model
  obtain ⟨hiff, hmessage⟩ := hfails _ hroot
  obtain ⟨failure, hfailure⟩ := hiff.mpr (Or.inr ⟨nestedConfig, hgoverns,
    Catalog.noJavaUtilDate, by simp [Catalog.standardRules], by decide, _, rfl⟩)
  exact ⟨hroot, hgoverns, failure, hfailure, hmessage _ hgoverns failure hfailure⟩

end Project

end Conformance
