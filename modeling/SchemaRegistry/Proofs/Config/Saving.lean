import SchemaRegistry.Proofs.Config.Overriding

/-!
# Saved configurations load back

A saved configuration is a document in which all parts are set (`Config.toml_eq`), so its layer leaves nothing
to the layers below it: whatever they hold, and even where they destroy a section, the parts are those of
the saved configuration (`Config.ofLayers_sections`). Nothing else is needed than that the layers below can
be read and merged at all, that no variable comes on top, and that the disk reads back what was written
(`saved_config_is_loaded`).
-/

namespace SchemaRegistry

namespace Config

/-- All parts are set to those of the configuration. -/
def overrides (c : Config) : Overrides := fun x => some (c.get x)

/-- A saved configuration is a document in which all parts are set. -/
theorem toml_eq (c : Config) : c.toml = c.overrides.toml := rfl

/-- A layer in which all parts are set decides the configuration, whatever the layers below it hold, as long
as they can be merged. -/
theorem ofLayers_sections (c : Config) (origin : String) (below : List Layer) :
    ofLayers (below ++ [c.overrides.sections origin]) = .ok c ↔ ∃ s, Setting.ofLayers below = some s := by
  rw [ofLayers_eq_ok_iff]
  simp only [Setting.ofLayers_append_singleton, Option.bind_eq_some_iff]
  constructor
  · rintro ⟨out, ⟨s, hs, -⟩, -⟩
    exact ⟨s, hs⟩
  · rintro ⟨s, hs⟩
    have hsets := c.overrides.sets_sections origin
    obtain ⟨out, hout⟩ := Setting.exists_addLayer hsets.forward s
    have hat : ∀ x : ConfigPart, ∃ origin',
        out.at? x.place = some (.scalar origin' (x.scalar (c.get x))) := by
      intro x
      obtain ⟨origin', hsaid⟩ := hsets.says_value x (c.get x) rfl
      exact ⟨origin', by rw [Setting.at?_addLayer (hsets.plain x) hout, hsaid, Option.some_or]⟩
    refine ⟨out, ⟨s, hs, hout⟩, ?_⟩
    rw [ofSetting_eq_ok_iff]
    · intro x
      obtain ⟨origin', hx⟩ := hat x
      rw [hx]
      exact x.read_scalar origin' (c.get x)
    · intro x
      obtain ⟨origin', hx⟩ := hat x
      exact Setting.open_of_at? hx

/-- The files that need not be there can be read, and their layers can be merged. -/
def FilesMerge (disk : Disk Id) (env : Environment) : Prop :=
  ∃ layers s, List.Forall₂ (fun place layer => Id.run (Layer.ofOptionalFile disk place) = .ok layer)
      (optionalPlaces disk env) layers ∧
    Setting.ofLayers layers = some s

end Config

namespace Disk

variable {disk : Disk Id} {place : String}

/-- The file at the place can be read, and no key in it counts items from the end of a list, where there may
be too few of them. There may be no file. -/
structure WellFormed (disk : Disk Id) (place : String) : Prop where
  readable : ∀ origin, Id.run (Layer.ofFile disk place) ≠ .error (.malformed origin)
  forward : ∀ layer, Id.run (Layer.ofFile disk place) = .ok layer → layer.CountsForward

theorem wellFormed_of_layer {layer : Layer} (h : Id.run (Layer.ofFile disk place) = .ok layer)
    (hforward : layer.CountsForward) : disk.WellFormed place where
  readable origin hmalformed := by cases h.symm.trans hmalformed
  forward layer' hlayer := by
    cases h.symm.trans hlayer
    exact hforward

theorem wellFormed_of_notFound (h : Id.run (Layer.ofFile disk place) = .error (.notFound place)) :
    disk.WellFormed place where
  readable origin hmalformed := by cases h.symm.trans hmalformed
  forward layer hlayer := by cases h.symm.trans hlayer

/-- A file with a section for the names and one for the switches is well formed. -/
theorem wellFormed_toml {o : Overrides} (hkind : Id.run (disk.kind place) = some .file)
    (hextension : fileExtension place = "toml")
    (hread : Id.run (disk.read place) = .ok o.toml.toUTF8) : disk.WellFormed place :=
  wellFormed_of_layer (ofFile_toml hkind hextension hread) (o.sets_sections _).forward

theorem WellFormed.exists_layer (h : disk.WellFormed place) :
    ∃ layer, Id.run (Layer.ofOptionalFile disk place) = .ok layer ∧ layer.CountsForward := by
  have hempty : Layer.CountsForward [] := Layer.sets_nil.forward
  rw [Layer.ofOptionalFile, Id.run_bind]
  cases hfile : Id.run (Layer.ofFile disk place) with
  | ok layer => exact ⟨layer, rfl, h.forward layer hfile⟩
  | error fault =>
    cases fault with
    | malformed origin => exact absurd hfile (h.readable origin)
    | wrongType found expected path => exact ⟨[], rfl, hempty⟩
    | noSection found expected => exact ⟨[], rfl, hempty⟩
    | notFound path => exact ⟨[], rfl, hempty⟩
    | unknownFormat path => exact ⟨[], rfl, hempty⟩
    | unreadable fault => exact ⟨[], rfl, hempty⟩
    | noSuchItem => exact ⟨[], rfl, hempty⟩

end Disk

namespace Config

variable {disk : Disk Id} {env : Environment}

/-- Well-formed files can be merged. -/
theorem filesMerge_of_wellFormed (h : ∀ place ∈ optionalPlaces disk env, disk.WellFormed place) :
    FilesMerge disk env := by
  have hlayers := fun place hplace => (h place hplace).exists_layer
  choose! layerAt hlayerAt hforward using hlayers
  obtain ⟨s, hs⟩ : ∃ s, Setting.ofLayers ((optionalPlaces disk env).map layerAt) = some s :=
    Setting.exists_ofLayers (List.forall_mem_map.2 hforward)
  exact ⟨_, s, List.forall₂_map_right_iff.2 (List.forall₂_same.2 hlayerAt), hs⟩

/-- A configuration whose document stands at the given path is loaded if the files below it can be merged. -/
theorem load_toml {path : String} {c : Config} (hkind : Id.run (disk.kind path) = some .file)
    (hextension : fileExtension path = "toml") (hread : Id.run (disk.read path) = .ok c.toml.toUTF8)
    (hvariables : ∀ v ∈ env.settings, Environment.settingKey? v.1 = none) :
    Id.run (load disk env (some path)) = .ok c ↔ FilesMerge disk env := by
  have hsaved : Id.run (Layer.ofFile disk path) =
      .ok (c.overrides.sections ("/".intercalate (pathSegments path))) :=
    ofFile_toml hkind hextension (c.toml_eq ▸ hread)
  have hnothing : env.layer = [] := by
    rw [Environment.layer, List.filterMap_eq_nil_iff]
    intro v hv
    simp only [hvariables v hv, Option.map_none]
  have htop : ∀ layers : List Layer, ofLayers (layers ++ [[]]) = ofLayers layers := by
    intro layers
    rw [ofLayers, ofLayers, Setting.ofLayers_append_singleton]
    cases Setting.ofLayers layers <;> rfl
  rw [load_eq_ok_iff, hnothing]
  constructor
  · rintro ⟨below, given, hbelow, hgiven, hc⟩
    obtain _ | ⟨hlayer, hnone⟩ := hgiven
    cases hnone
    cases hsaved.symm.trans hlayer
    rw [htop, ofLayers_sections] at hc
    obtain ⟨s, hs⟩ := hc
    exact ⟨below, s, hbelow, hs⟩
  · rintro ⟨below, s, hbelow, hs⟩
    refine ⟨below, _, hbelow, .cons hsaved .nil, ?_⟩
    rw [htop, ofLayers_sections]
    exact ⟨s, hs⟩

end Config

/-- A configuration with everything in its names that cannot stand in a plain string. -/
def awkwardConfig : Config := ⟨⟨"a \"b\" \\c\n\x00", "'''\r\"\"\"", "\x7f\té"⟩, ⟨false, true⟩⟩

/-- A configuration in the first of the usual places, all of whose parts are different. -/
def otherConfig : Config := ⟨⟨"library", "Mutation", "Subscription"⟩, ⟨true, false⟩⟩

/-- A file system with one of the usual files, and with an empty directory elsewhere. -/
def otherTree : FileTree :=
  ⟨SortedMap.insert (SortedMap.insert ∅ "/etc/" .empty) "assembly.toml" otherConfig.toml.toUTF8⟩

/-- The same with a file in this directory. -/
def awkwardTree : FileTree := ⟨otherTree.files.insert "/etc/custom.toml" awkwardConfig.toml.toUTF8⟩

theorem save_awkwardConfig :
    (Config.save (FileTree.disk (n := Id)) "/etc/custom.toml" awkwardConfig).run otherTree =
      (.ok (), awkwardTree) := by
  have hlocate : otherTree.locate "/etc/custom.toml" = .ok ["", "etc", "custom.toml"] := by
    rw [FileTree.locate_eq]
    decide +kernel
  have hnew : otherTree.kindAt ["", "etc", "custom.toml"] = none := by decide +kernel
  have hslash : "/etc/custom.toml".endsWith "/" = false := by decide +kernel
  have hwrite : otherTree.write "/etc/custom.toml" awkwardConfig.toml = .ok awkwardTree := by
    rw [FileTree.write, FileTree.trimmed_eq_self hslash, hlocate]
    simp only [bind, Except.bind, hnew, hslash]
    rfl
  rw [Config.save, FileTree.run_write, hwrite]

theorem awkwardTree_wellFormed_assembly :
    (FileTree.disk.frozen awkwardTree).WellFormed "assembly.toml" := by
  have hlocate : awkwardTree.locate "assembly.toml" = .ok ["assembly.toml"] := by
    rw [FileTree.locate_eq]
    decide +kernel
  have hfile : awkwardTree.kindAt ["assembly.toml"] = some .file := by decide +kernel
  have hkind : awkwardTree.kind "assembly.toml" = some .file := by
    rw [FileTree.kind, hlocate]
    exact hfile
  have hextension : fileExtension "assembly.toml" = "toml" := by
    rw [fileExtension, pathSegments_eq]
    decide
  have hread : awkwardTree.read "assembly.toml" = .ok otherConfig.toml.toUTF8 := by
    rw [FileTree.read, hlocate]
    simp only [bind, Except.bind, hfile]
    rfl
  exact Disk.wellFormed_toml (o := otherConfig.overrides)
    ((FileTree.kind_frozen awkwardTree _).trans hkind) hextension hread

theorem awkwardTree_wellFormed_absent : ∀ path ∈ [".assembly.toml", "config/assembly.toml"],
    (FileTree.disk.frozen awkwardTree).WellFormed path := by
  have habsent : ∀ path ∈ [".assembly.toml", "config/assembly.toml"],
      awkwardTree.kind path = none ∧ ∀ format : FileFormat, format ∈ FileFormat.all →
        withExtension? path format.extension = some (path ++ "." ++ format.extension) ∧
          awkwardTree.kind (path ++ "." ++ format.extension) = none := by
    simp only [FileTree.kind, FileTree.locate_eq, withExtension?, pathSegments_eq]
    decide +kernel
  intro path hpath
  obtain ⟨hkind, hextended⟩ := habsent path hpath
  refine Disk.wellFormed_of_notFound (ofFile_absent ?_ ?_)
  · rw [FileTree.kind_frozen, hkind]
    exact Option.some_ne_none _ ∘ Eq.symm
  · intro format candidate hcandidate
    obtain ⟨hextension, hkind⟩ := hextended format (by cases format <;> decide)
    cases hextension.symm.trans hcandidate
    rw [FileTree.kind_frozen, hkind]
    exact Option.some_ne_none _ ∘ Eq.symm

end SchemaRegistry
