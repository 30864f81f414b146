import SchemaRegistry.Config.Layers
import SchemaRegistry.Proofs.Config.Reading
import SchemaRegistry.Proofs.Disk
import SchemaRegistry.Proofs.Text.Bytes

/-!
# Loading a configuration

Loading only reads: on a lawful disk it finds what it finds on the disk as it stands, and leaves it alone
(`Config.finds_load`). On a disk as it stands it is a calculation, and succeeds if every file that need not be
there gives a layer, the given file gives one, and the layers together make a configuration
(`Config.load_eq_ok_iff`).

The bytes of a file are the text that was written (`fileText_toUTF8`), and where nothing stands, under the
name itself or with an extension, no layer is found (`ofFile_absent`).
-/

namespace SchemaRegistry

open Json (bind_eq_ok_iff mapM_eq_ok_iff)

/-! ## Loading from a disk as it stands -/

section Finding

variable {σ : Type} {disk : Disk (StateT σ Id)} (hdisk : disk.Lawful) (s : σ)

include hdisk

theorem finds_findAmong (files : List (String × FileFormat)) :
    Finds s (Layer.findAmong disk files) (Layer.findAmong (disk.frozen s) files) := by
  induction files with
  | nil => exact .pure s _
  | cons e rest ih =>
    refine (hdisk.finds_isFile s e.1).bind fun found => ?_
    cases found with
    | true => exact .pure s _
    | false => exact ih

theorem finds_findFile (path : String) :
    Finds s (Layer.findFile disk path) (Layer.findFile (disk.frozen s) path) := by
  refine (hdisk.finds_isFile s path).bind fun found => ?_
  cases found with
  | true =>
    simp only [if_true]
    cases FileFormat.all.find? (·.extension = fileExtension path) <;> exact .pure s _
  | false =>
    refine (finds_findAmong hdisk s _).bind fun found => ?_
    cases found <;> exact .pure s _

theorem finds_ofFile (path : String) :
    Finds s (Layer.ofFile disk path) (Layer.ofFile (disk.frozen s) path) := by
  refine (finds_findFile hdisk s path).bind fun found => ?_
  cases found with
  | error fault => exact .pure s _
  | ok file =>
    refine (hdisk.finds_read s file.1).bind fun content => ?_
    cases content with
    | error fault => exact .pure s _
    | ok bytes =>
      simp only
      cases file.2.readLayer? ("/".intercalate (pathSegments file.1)) (fileText bytes) <;> exact .pure s _

theorem finds_ofOptionalFile (path : String) :
    Finds s (Layer.ofOptionalFile disk path) (Layer.ofOptionalFile (disk.frozen s) path) := by
  refine (finds_ofFile hdisk s path).bind fun layer => ?_
  cases layer with
  | ok layer => exact .pure s _
  | error fault => cases fault <;> exact .pure s _

theorem finds_ofOptionalFiles (paths : List String) :
    Finds s (Layer.ofOptionalFiles disk paths) (Layer.ofOptionalFiles (disk.frozen s) paths) := by
  induction paths with
  | nil => exact .pure s _
  | cons path rest ih =>
    refine (finds_ofOptionalFile hdisk s path).bind fun layer => ?_
    cases layer with
    | error fault => exact .pure s _
    | ok layer => exact ih.bind fun _ => .pure s _

end Finding

namespace Config

section Places

variable {n : Type → Type} [Monad n]

/-- The user's own file, if it exists. -/
def userFiles (disk : Disk n) (env : Environment) : n (List String) :=
  match env.userFile with
  | none => return []
  | some file => return if (← disk.kind file).isSome then [file] else []

/-- All layers, when it is known whether the user's own file exists. -/
def collectFrom (disk : Disk n) (env : Environment) (path : Option String) (userFiles : List String) :
    n (Except ConfigFault (List Layer)) := do
  match ← Layer.ofOptionalFiles disk (defaultFiles ++ userFiles) with
  | .error fault => return .error fault
  | .ok layers =>
    match path with
    | none => return .ok (layers ++ [env.layer])
    | some path =>
      return (← Layer.ofFile disk path).map fun layer => layers ++ [layer, env.layer]

theorem collectLayers_eq_bind [LawfulMonad n] (disk : Disk n) (env : Environment)
    (path : Option String) :
    collectLayers disk env path = userFiles disk env >>= collectFrom disk env path := by
  cases henv : env.userFile with
  | none =>
    simp only [collectLayers, userFiles, henv, pure_bind]
    rfl
  | some file =>
    simp only [collectLayers, userFiles, henv, pure_bind, bind_assoc]
    congr 1
    funext kind
    cases kind <;> rfl

end Places

section Finding

variable {σ : Type} {disk : Disk (StateT σ Id)} (hdisk : disk.Lawful) (s : σ) (env : Environment)
  (path : Option String)

include hdisk

theorem finds_collectLayers :
    Finds s (collectLayers disk env path) (collectLayers (disk.frozen s) env path) := by
  rw [collectLayers_eq_bind, collectLayers_eq_bind]
  have huser : Finds s (userFiles disk env) (userFiles (disk.frozen s) env) := by
    unfold userFiles
    cases env.userFile with
    | none => exact .pure s _
    | some file => exact (hdisk.finds_kind s file).bind fun _ => .pure s _
  refine huser.bind fun files => (finds_ofOptionalFiles hdisk s _).bind fun layers => ?_
  cases layers with
  | error fault => exact .pure s _
  | ok layers =>
    cases path with
    | none => exact .pure s _
    | some path => exact (finds_ofFile hdisk s path).bind fun _ => .pure s _

/-- Loading finds what it would find if nothing was ever written. -/
theorem finds_load : Finds s (load disk env path) (load (disk.frozen s) env path) := by
  refine (finds_collectLayers hdisk s env path).bind fun layers => ?_
  cases layers <;> exact .pure s _

end Finding

end Config

/-! ## The layers that are read -/

/-- A text that begins with a character of seven bits is read as it was written. -/
theorem fileText_toUTF8 {c : Char} (h : c.toNat < 128) (cs : List Char) :
    fileText (String.ofList (c :: cs)).toUTF8 = String.ofList (c :: cs) := by
  have hmark : ((String.ofList (c :: cs)).toUTF8.extract 0 3).toList ≠ [0xEF, 0xBB, 0xBF] := by
    intro hbytes
    have hhead := congrArg List.head? hbytes
    rw [toList_extract_zero, List.head?_take, if_neg (by decide), Text.head?_toUTF8 h] at hhead
    have hlarge : UInt8.ofNat c.toNat = 0xEF := Option.some.inj hhead
    have hvalue := congrArg UInt8.toNat hlarge
    rw [UInt8.toNat_ofNat_of_lt' (Nat.lt_trans h (by decide))] at hvalue
    change c.toNat = 239 at hvalue
    omega
  rw [fileText, if_neg hmark, Text.decodeLenient_toUTF8]

theorem findAmong_eq_none {disk : Disk Id} {files : List (String × FileFormat)}
    (h : ∀ file ∈ files, Id.run (disk.kind file.1) ≠ some .file) :
    Id.run (Layer.findAmong disk files) = none := by
  induction files with
  | nil => rfl
  | cons file rest ih =>
    obtain ⟨hfile, hrest⟩ := List.forall_mem_cons.1 h
    have hnone : Id.run (disk.isFile file.1) = false := beq_false_of_ne hfile
    rw [Layer.findAmong, Id.run_bind, hnone]
    exact ih hrest

/-- Where there is no file, under the name itself or with an extension, there is no layer. -/
theorem ofFile_absent {disk : Disk Id} {path : String}
    (hpath : Id.run (disk.kind path) ≠ some .file)
    (hcandidates : ∀ (format : FileFormat) (candidate : String),
      withExtension? path format.extension = some candidate →
        Id.run (disk.kind candidate) ≠ some .file) :
    Id.run (Layer.ofFile disk path) = .error (.notFound path) := by
  have hnone : Id.run (disk.isFile path) = false := beq_false_of_ne hpath
  have hamong : Id.run (Layer.findAmong disk (FileFormat.all.filterMap fun format =>
      (withExtension? path format.extension).map (·, format))) = none := by
    apply findAmong_eq_none
    intro file hfile
    obtain ⟨format, -, hformat⟩ := List.mem_filterMap.1 hfile
    obtain ⟨candidate, hcandidate, rfl⟩ := Option.map_eq_some_iff.1 hformat
    exact hcandidates format candidate hcandidate
  have hfound : Id.run (Layer.findFile disk path) = .error (.notFound path) := by
    rw [Layer.findFile, Id.run_bind, hnone, if_neg Bool.false_ne_true, Id.run_bind, hamong]
    rfl
  rw [Layer.ofFile, Id.run_bind, hfound]
  rfl

theorem run_ofOptionalFiles (disk : Disk Id) (places : List String) :
    Id.run (Layer.ofOptionalFiles disk places) =
      places.mapM fun place => Id.run (Layer.ofOptionalFile disk place) := by
  induction places with
  | nil => rfl
  | cons place rest ih =>
    rw [List.mapM_cons, ← ih, Layer.ofOptionalFiles, Id.run_bind]
    cases Id.run (Layer.ofOptionalFile disk place) with
    | error fault => rfl
    | ok layer =>
      simp only [Id.run_bind]
      cases Id.run (Layer.ofOptionalFiles disk rest) <;> rfl

namespace Config

/-- The places of the files that need not be there. -/
def optionalPlaces (disk : Disk Id) (env : Environment) : List String :=
  defaultFiles ++ Id.run (userFiles disk env)

theorem mem_of_mem_optionalPlaces {disk : Disk Id} {env : Environment} {place : String}
    (h : place ∈ optionalPlaces disk env) : place ∈ defaultFiles ++ env.userFile.toList := by
  rcases List.mem_append.1 h with h | h
  · exact List.mem_append_left _ h
  · apply List.mem_append_right
    rw [userFiles] at h
    cases huser : env.userFile with
    | none =>
      rw [huser] at h
      cases h
    | some file =>
      simp only [huser, Id.run_bind, Id.run_pure] at h
      split at h
      · exact h
      · cases h

/-- What is loaded: the layers of the files that need not be there, then that of the given file, then that
of the variables. -/
theorem run_load (disk : Disk Id) (env : Environment) (path : Option String) :
    Id.run (load disk env path) = (do
      let optional ← (optionalPlaces disk env).mapM fun place => Id.run (Layer.ofOptionalFile disk place)
      let given ← path.toList.mapM fun place => Id.run (Layer.ofFile disk place)
      ofLayers (optional ++ given ++ [env.layer])) := by
  rw [load, collectLayers_eq_bind, Id.run_bind, Id.run_bind, collectFrom, Id.run_bind, ← optionalPlaces,
    run_ofOptionalFiles]
  cases (optionalPlaces disk env).mapM fun place => Id.run (Layer.ofOptionalFile disk place) with
  | error fault => rfl
  | ok optional =>
    cases path with
    | none =>
      have hlayers : optional ++ [env.layer] = optional ++ [] ++ [env.layer] := by
        rw [List.append_nil]
      exact congrArg ofLayers hlayers
    | some path =>
      simp only [Option.toList_some, List.mapM_cons, List.mapM_nil, Id.run_bind]
      cases Id.run (Layer.ofFile disk path) with
      | error fault => rfl
      | ok given =>
        have hlayers : optional ++ [given, env.layer] = optional ++ [given] ++ [env.layer] := by
          rw [List.append_assoc, List.singleton_append]
        exact congrArg ofLayers hlayers

/-- A configuration is loaded if all these layers can be read and make one. -/
theorem load_eq_ok_iff {disk : Disk Id} {env : Environment} {path : Option String} {c : Config} :
    Id.run (load disk env path) = .ok c ↔ ∃ optional given : List Layer,
      List.Forall₂ (fun place layer => Id.run (Layer.ofOptionalFile disk place) = .ok layer)
        (optionalPlaces disk env) optional ∧
      List.Forall₂ (fun place layer => Id.run (Layer.ofFile disk place) = .ok layer)
        path.toList given ∧
      ofLayers (optional ++ given ++ [env.layer]) = .ok c := by
  simp only [run_load, bind_eq_ok_iff, mapM_eq_ok_iff]
  constructor
  · rintro ⟨optional, hoptional, given, hgiven, hc⟩
    exact ⟨optional, given, hoptional, hgiven, hc⟩
  · rintro ⟨optional, given, hoptional, hgiven, hc⟩
    exact ⟨optional, hoptional, given, hgiven, hc⟩

end Config

end SchemaRegistry
