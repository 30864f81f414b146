import SchemaRegistry.Proofs.Config.Loading
import SchemaRegistry.Proofs.Config.Sections

/-!
# Layers override each other setting by setting

If every file sets some of the parts, and the variables set some, the configuration is loaded, and each of
its parts has the value of the last layer that sets it, or else its default
(`layers_override_setting_by_setting`). What other keys of the same section a layer sets does not matter.

Files in TOML with the keys of any parts are such files (`Disk.holds_toml`), and variables are such a layer
(`Overrides.sets_asVariables`).
-/

namespace SchemaRegistry

/-! ## Files that set parts -/

/-- The file at a place that may be empty sets these parts. -/
def Disk.Offers (disk : Disk Id) (place : String) (o : Overrides) : Prop :=
  ∃ layer, Id.run (Layer.ofOptionalFile disk place) = .ok layer ∧ layer.Sets o

/-- The file that a path means sets these parts. -/
def Disk.Holds (disk : Disk Id) (path : String) (o : Overrides) : Prop :=
  ∃ layer, Id.run (Layer.ofFile disk path) = .ok layer ∧ layer.Sets o

/-- Files that set parts are read as layers that do. -/
theorem exists_layers {read : String → Except ConfigFault Layer} {places : List String}
    {overrides : List Overrides}
    (h : List.Forall₂ (fun place o => ∃ layer, read place = .ok layer ∧ layer.Sets o) places overrides) :
    ∃ layers, List.Forall₂ (fun place layer => read place = .ok layer) places layers ∧
      List.Forall₂ Layer.Sets layers overrides := by
  induction h with
  | nil => exact ⟨[], .nil, .nil⟩
  | cons hfile _ ih =>
    obtain ⟨layer, hread, hsets⟩ := hfile
    obtain ⟨layers, hreads, hall⟩ := ih
    exact ⟨layer :: layers, .cons hread hreads, .cons hsets hall⟩

/-- A file in TOML with both sections. -/
theorem ofFile_toml {disk : Disk Id} {path : String} {o : Overrides}
    (hkind : Id.run (disk.kind path) = some .file) (hextension : fileExtension path = "toml")
    (hread : Id.run (disk.read path) = .ok o.toml.toUTF8) :
    Id.run (Layer.ofFile disk path) = .ok (o.sections ("/".intercalate (pathSegments path))) := by
  have hfile : Id.run (disk.isFile path) = true := by
    rw [Disk.isFile, Id.run_bind, hkind]
    rfl
  have hfound : Id.run (Layer.findFile disk path) = .ok (path, .toml) := by
    rw [Layer.findFile, Id.run_bind, hfile]
    simp only [if_true, hextension]
    rfl
  have htext : fileText o.toml.toUTF8 = o.toml := fileText_toUTF8 (by decide) _
  rw [Layer.ofFile, Id.run_bind, hfound]
  simp only [Id.run_bind, hread, htext, Overrides.readLayer?_toml]
  rfl

namespace Disk

variable {disk : Disk Id} {path : String} {o : Overrides}

theorem holds_toml (hkind : Id.run (disk.kind path) = some .file)
    (hextension : fileExtension path = "toml")
    (hread : Id.run (disk.read path) = .ok o.toml.toUTF8) : disk.Holds path o :=
  ⟨_, ofFile_toml hkind hextension hread, o.sets_sections _⟩

theorem Holds.offers (h : disk.Holds path o) : disk.Offers path o := by
  obtain ⟨layer, hlayer, hsets⟩ := h
  refine ⟨layer, ?_, hsets⟩
  rw [Layer.ofOptionalFile, Id.run_bind, hlayer]
  rfl

/-- A file that is not there sets nothing. -/
theorem offers_of_notFound (h : Id.run (Layer.ofFile disk path) = .error (.notFound path)) :
    disk.Offers path fun _ => none := by
  refine ⟨[], ?_, Layer.sets_nil⟩
  rw [Layer.ofOptionalFile, Id.run_bind, h]
  rfl

end Disk

/-! ## The last layer that sets a part -/

/-- The files that need not be there, then the given file, then the variables: whatever parts each of them
sets, the last one that sets a part decides it. -/
theorem layers_override_setting_by_setting (disk : Disk Id) (env : Environment) (path : Option String)
    {offered given : List Overrides} {environment : Overrides}
    (hoffered : List.Forall₂ disk.Offers (Config.optionalPlaces disk env) offered)
    (hgiven : List.Forall₂ disk.Holds path.toList given) (henvironment : env.layer.Sets environment) :
    ∃ c, Id.run (Config.load disk env path) = .ok c ∧
      ∀ x : ConfigPart,
        c.get x = (Overrides.last (offered ++ given ++ [environment]) x).getD x.default := by
  obtain ⟨optional, hoptional, hsets⟩ := exists_layers hoffered
  obtain ⟨given', hgiven', hsets'⟩ := exists_layers hgiven
  have hlayers : List.Forall₂ Layer.Sets (optional ++ given' ++ [env.layer])
      (offered ++ given ++ [environment]) :=
    List.rel_append (List.rel_append hsets hsets') (.cons henvironment .nil)
  obtain ⟨c, hload, hparts⟩ := Config.exists_ofLayers hlayers
  exact ⟨c, Config.load_eq_ok_iff.2 ⟨optional, given', hoptional, hgiven', hload⟩, hparts⟩

/-- A disk with files in TOML that set parts. -/
def Disk.ofOverrides (files : List (String × Overrides)) : Disk Id where
  kind path := pure ((files.lookup path).map fun _ => .file)
  read path := pure (match files.lookup path with
    | some o => .ok o.toml.toUTF8
    | none => .error .notFound)
  write _ _ := pure (.error (.other "read-only"))

theorem Disk.holds_ofOverrides {files : List (String × Overrides)} {path : String} {o : Overrides}
    (h : files.lookup path = some o) (hextension : fileExtension path = "toml") :
    (Disk.ofOverrides files).Holds path o := by
  have hkind : Id.run ((Disk.ofOverrides files).kind path) = some .file := by
    simp only [ofOverrides, h]
    rfl
  have hread : Id.run ((Disk.ofOverrides files).read path) = .ok o.toml.toUTF8 := by
    simp only [ofOverrides, h]
    rfl
  exact Disk.holds_toml hkind hextension hread

/-- Nothing is set. -/
def Overrides.none : Overrides := fun _ => Option.none

/-- A further part is set. -/
def Overrides.set (o : Overrides) (x : ConfigPart) (v : x.Value) : Overrides :=
  Function.update o x (some v)

/-- Four files that set different parts, some of them more than once. -/
def scatteredFiles : List (String × Overrides) :=
  [("assembly.toml",
      (Overrides.none.set (.name .builtinSource) "library").set (.name .mutation) "Mutation"),
    ("config/assembly.toml", (Overrides.none.set (.name .mutation) "root").set (.switch .importsExist) false),
    ("user/assembly.toml", Overrides.none.set (.name .subscription) "events"),
    ("custom.toml", Overrides.none.set (.switch .importsExist) true)]

/-- A variable that sets one of them again. -/
def scatteredVariables : Overrides := Overrides.none.set (.name .subscription) "news"

/-- Where the third of the files is the user's own. -/
def scatteredEnvironment : Environment := ⟨scatteredVariables.asVariables, some "user/assembly.toml"⟩

theorem scattered_layers_override :
    Id.run (Config.load (Disk.ofOverrides scatteredFiles) scatteredEnvironment (some "custom.toml")) =
      .ok ⟨⟨"library", "root", "news"⟩, ⟨true, true⟩⟩ := by
  have hextension : ∀ path ∈ ["assembly.toml", "config/assembly.toml", "user/assembly.toml",
      "custom.toml"], fileExtension path = "toml" := by
    simp only [fileExtension, pathSegments_eq]
    decide
  have hholds : ∀ {path o}, scatteredFiles.lookup path = some o → fileExtension path = "toml" →
      (Disk.ofOverrides scatteredFiles).Holds path o := Disk.holds_ofOverrides
  have habsent : (Disk.ofOverrides scatteredFiles).Offers ".assembly.toml" Overrides.none := by
    have hcandidates : ∀ format : FileFormat, withExtension? ".assembly.toml" format.extension =
        some (".assembly.toml." ++ format.extension) := by
      simp only [withExtension?, pathSegments_eq]
      rintro ⟨⟩ <;> decide +kernel
    refine Disk.offers_of_notFound (ofFile_absent (fun h => by cases h) ?_)
    intro format candidate hcandidate h
    cases (hcandidates format).symm.trans hcandidate
    cases format <;> cases h
  have hoffered : List.Forall₂ (Disk.ofOverrides scatteredFiles).Offers
      (Config.optionalPlaces (Disk.ofOverrides scatteredFiles) scatteredEnvironment)
      [_, Overrides.none, _, _] :=
    .cons (hholds rfl (hextension _ (by decide))).offers <|
      .cons habsent <|
      .cons (hholds rfl (hextension _ (by decide))).offers <|
      .cons (hholds rfl (hextension _ (by decide))).offers .nil
  have hgiven : List.Forall₂ (Disk.ofOverrides scatteredFiles).Holds ["custom.toml"] [_] :=
    .cons (hholds rfl (hextension _ (by decide))) .nil
  have hvariables : ∀ (part : SchemaPart) (s : String),
      scatteredVariables (.name part) = some s → Scalar.ofVariable s = .text s := by
    intro part s hs
    cases part with
    | builtinSource => cases hs
    | mutation => cases hs
    | subscription =>
      cases hs
      cbv
  obtain ⟨c, hload, hc⟩ := layers_override_setting_by_setting _ _ (some "custom.toml") hoffered hgiven
    (Overrides.sets_asVariables hvariables _)
  have hparts : c = ⟨⟨"library", "root", "news"⟩, ⟨true, true⟩⟩ := by
    apply Config.ext_get
    intro x
    rw [hc]
    rcases x with part | part <;> cases part <;> rfl
  exact hload.trans (congrArg Except.ok hparts)

end SchemaRegistry
