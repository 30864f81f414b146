import Mathlib.Data.String.Basic
import SchemaRegistry.Disk
import SchemaRegistry.Proofs.Json.Given
import SchemaRegistry.Proofs.SortedMap

/-!
# Paths, and reading what was written

What is asked of a disk is little (`Disk.Lawful`): asking and reading change nothing, and where a text was
written there is a file with this text. A disk as it stands is a disk of its own, on which nothing has to be
remembered (`Disk.frozen`). Work that only reads finds on a lawful disk what it finds on this one, and leaves
everything as it is (`Finds`).

A path is taken apart at its slashes (`splitOn_slash`), and its segments are told from its characters
(`pathSegments_eq`).

Writing a file in memory takes no directory away: the places that a path goes through are the same before
and after, so the path of the file leads to the file (`FileTree.locate_of_write`), whose content is what was
written (`FileTree.read_of_write`). So files in memory are a lawful disk (`FileTree.lawful_disk`).
-/

namespace SchemaRegistry

/-! ## Disks that read back what was written -/

section LawfulDisks

variable {σ α β : Type}

/-- Asking and reading leave the disk as it is, and where a text was written there is a file with this
text. -/
structure Disk.Lawful (disk : Disk (StateT σ Id)) : Prop where
  kind_keeps : ∀ path s, ((disk.kind path).run s).2 = s
  read_keeps : ∀ path s, ((disk.read path).run s).2 = s
  kind_of_write : ∀ {path content s s'}, (disk.write path content).run s = (.ok (), s') →
    ((disk.kind path).run s').1 = some .file
  read_of_write : ∀ {path content s s'}, (disk.write path content).run s = (.ok (), s') →
    ((disk.read path).run s').1 = .ok content.toUTF8

/-- A disk as it stands. -/
def Disk.frozen (disk : Disk (StateT σ Id)) (s : σ) : Disk Id where
  kind path := pure ((disk.kind path).run s).1
  read path := pure ((disk.read path).run s).1
  write path content := pure ((disk.write path content).run s).1

/-- The work leaves everything as it is, and its result is the answer. -/
def Finds (s : σ) (work : StateT σ Id α) (answer : Id α) : Prop := work.run s = (answer.run, s)

theorem Finds.pure (s : σ) (a : α) : Finds s (Pure.pure a) (Pure.pure a) := rfl

theorem Finds.bind {s : σ} {work : StateT σ Id α} {answer : Id α} {next : α → StateT σ Id β}
    {answers : α → Id β} (h : Finds s work answer) (hnext : ∀ a, Finds s (next a) (answers a)) :
    Finds s (work >>= next) (answer >>= answers) := by
  rw [Finds, StateT.run_bind, h]
  exact hnext answer.run

namespace Disk.Lawful

variable {disk : Disk (StateT σ Id)} (h : disk.Lawful)

include h

theorem finds_kind (s : σ) (path : String) : Finds s (disk.kind path) ((disk.frozen s).kind path) :=
  Prod.ext rfl (h.kind_keeps path s)

theorem finds_read (s : σ) (path : String) : Finds s (disk.read path) ((disk.frozen s).read path) :=
  Prod.ext rfl (h.read_keeps path s)

theorem finds_isFile (s : σ) (path : String) :
    Finds s (disk.isFile path) ((disk.frozen s).isFile path) :=
  (h.finds_kind s path).bind fun _ => .pure s _

end Disk.Lawful

end LawfulDisks

/-! ## Taking a path apart -/

section Splitting

open String

/-- The loop that splits a text at its slashes, from a position in it: `l` has been split, `m` belongs to
the segment that is being read, and `r` is still to be read. -/
theorem splitOnAux_slash (l m r : List Char) (found : List String) :
    splitOnAux (ofList (l ++ m ++ r)) "/" ⟨utf8Len l⟩ ⟨utf8Len l + utf8Len m⟩ 0 found =
      found.reverse ++ (List.splitOnPPrepend (· == '/') r m.reverse).map ofList := by
  have hextract := extract_of_valid l m r
  unfold splitOnAux
  cases r with
  | nil =>
    have hend : Pos.Raw.atEnd (ofList (l ++ m ++ [])) ⟨utf8Len l + utf8Len m⟩ = true := by
      simp [atEnd_iff, rawEndPos_ofList, -ofList_append]
    rw [if_pos hend, hextract]
    simp
  | cons c r =>
    have hend : ¬ Pos.Raw.atEnd (ofList (l ++ m ++ c :: r)) ⟨utf8Len l + utf8Len m⟩ = true := by
      have := c.utf8Size_pos
      simp [atEnd_iff, rawEndPos_ofList, -ofList_append]
      omega
    have hget : Pos.Raw.get (ofList (l ++ m ++ c :: r)) ⟨utf8Len l + utf8Len m⟩ = c := by
      have := get_of_valid (l ++ m) (c :: r)
      rwa [utf8Len_append] at this
    have hnext : Pos.Raw.next (ofList (l ++ m ++ c :: r)) ⟨utf8Len l + utf8Len m⟩ =
        ⟨utf8Len l + utf8Len m + c.utf8Size⟩ := by
      have := next_of_valid (l ++ m) c r
      rwa [utf8Len_append] at this
    have hmark : Pos.Raw.get "/" 0 = '/' := rfl
    have hlast : Pos.Raw.atEnd "/" (Pos.Raw.next "/" 0) = true := rfl
    rw [if_neg hend, hget, hmark]
    by_cases hc : c = '/'
    · subst hc
      -- The segment ends where the slash begins, one byte before the next position.
      have hback : (⟨utf8Len l + utf8Len m + Char.utf8Size '/'⟩ : Pos.Raw).unoffsetBy
          (Pos.Raw.next "/" 0) = ⟨utf8Len l + utf8Len m⟩ := rfl
      have hrest := splitOnAux_slash (l ++ m ++ ['/']) [] r (ofList m :: found)
      rw [if_pos (by rfl)]
      simp only [hlast, if_true, hnext, hback, hextract]
      simpa [Nat.add_assoc, List.splitOnPPrepend_cons_eq_if] using hrest
    · have hback : (⟨utf8Len l + utf8Len m⟩ : Pos.Raw).unoffsetBy 0 = ⟨utf8Len l + utf8Len m⟩ := rfl
      have hrest := splitOnAux_slash l (m ++ [c]) r found
      rw [if_neg (by simpa using hc), hback, hnext]
      simpa [Nat.add_assoc, List.splitOnPPrepend_cons_eq_if, hc] using hrest

theorem splitOn_slash (s : String) : s.splitOn "/" = (s.toList.splitOn '/').map ofList := by
  have h := splitOnAux_slash [] [] s.toList []
  rw [List.append_nil, List.nil_append, ofList_toList] at h
  exact h

end Splitting

theorem pathSegments_eq (path : String) :
    pathSegments path =
      ((path.toList.splitOn '/').map String.ofList).filter fun s => s ≠ "" ∧ s ≠ "." := by
  rw [pathSegments, splitOn_slash]

/-! ## Files in memory -/

namespace FileTree

open Json (bind_eq_ok_iff andThen_eq_ok_iff)

variable {t t' : FileTree} {path content : String} {place final : List String}

theorem locate_eq (t : FileTree) (path : String) :
    t.locate path =
      if path.toList.contains '\x00' then .error .zeroInName
      else if path = "" then .error .notFound
      else t.follow (if path.startsWith "/" then systemRoot else [])
        ((path.toList.splitOn '/').map String.ofList) := by
  rw [locate, splitOn_slash]

theorem checkDirectory_eq_ok_iff :
    t.checkDirectory place = .ok () ↔ t.kindAt place = some .directory := by
  unfold checkDirectory
  cases hkind : t.kindAt place with
  | none => simp
  | some kind => cases kind <;> simp

/-- Every directory of the first file system is one of the second. -/
def KeepsDirectories (t t' : FileTree) : Prop :=
  ∀ place, t.kindAt place = some .directory → t'.kindAt place = some .directory

/-- A path leads to the same place where all directories are kept. -/
theorem KeepsDirectories.follow_eq (h : t.KeepsDirectories t') {segments : List String}
    (hfollow : t.follow place segments = .ok final) : t'.follow place segments = .ok final := by
  induction segments generalizing place with
  | nil => exact hfollow
  | cons s rest ih =>
    obtain ⟨hcheck, hrest⟩ := andThen_eq_ok_iff.1 hfollow
    refine andThen_eq_ok_iff.2
      ⟨checkDirectory_eq_ok_iff.2 (h place (checkDirectory_eq_ok_iff.1 hcheck)), ?_⟩
    split_ifs at hrest ⊢
    · exact ih hrest
    · exact ih hrest
    · exact ih hrest
    · exact ih hrest

theorem KeepsDirectories.locate_eq (h : t.KeepsDirectories t') (hlocate : t.locate path = .ok place) :
    t'.locate path = .ok place := by
  rw [locate] at hlocate ⊢
  by_cases hzero : path.toList.contains '\x00'
  · rw [if_pos hzero] at hlocate
    cases hlocate
  by_cases hempty : path = ""
  · rw [if_neg hzero, if_pos hempty] at hlocate
    cases hlocate
  rw [if_neg hzero, if_neg hempty] at hlocate ⊢
  exact h.follow_eq hlocate

/-- A file appears where no directory is. -/
theorem keepsDirectories_insert {bytes : ByteArray} (h : t.kindAt place ≠ some .directory) :
    t.KeepsDirectories ⟨t.files.insert (joined place) bytes⟩ := by
  intro p hp
  by_cases hroot : p = [] ∨ p = systemRoot
  · rw [kindAt, if_pos hroot]
  -- Another path to the same file would lead to the same kind.
  have hne : joined p ≠ joined place := by
    intro heq
    apply h
    by_cases hplace : place = [] ∨ place = systemRoot
    · rw [kindAt, if_pos hplace]
    · rw [← hp, kindAt, kindAt, if_neg hroot, if_neg hplace, heq]
  rw [kindAt, if_neg hroot] at hp ⊢
  have hcontains : (t.files.insert (joined place) bytes).contains (joined p) =
      t.files.contains (joined p) := by
    rw [SortedMap.contains_insert, beq_false_of_ne hne, Bool.false_or]
  have hkeys : ∀ key ∈ t.files.keys, key ∈ (t.files.insert (joined place) bytes).keys := by
    intro key hkey
    rw [SortedMap.mem_keys_iff, ← SortedMap.contains_iff] at hkey ⊢
    rw [SortedMap.contains_insert, hkey, Bool.or_true]
  simp only [hcontains]
  split_ifs at hp with hfile hbelow
  · cases hp
  · obtain ⟨key, hkey, hstarts⟩ := List.any_eq_true.1 hbelow
    rw [if_neg hfile, if_pos (List.any_eq_true.2 ⟨key, hkeys key hkey, hstarts⟩)]

/-- A path that does not end in a slash loses none when the slashes at its end are dropped. -/
theorem trimmed_eq_self (h : path.endsWith "/" = false) : trimmed path = path := by
  have hsuffix : ¬ ['/'] <:+ path.toList := by
    have := String.Slice.endsWith_string_eq_false_iff.1 h
    rwa [String.copy_toSlice] at this
  have hlast : path.toList.reverse.dropWhile (· = '/') = path.toList.reverse := by
    cases hreverse : path.toList.reverse with
    | nil => rfl
    | cons c rest =>
      rw [List.dropWhile_cons_of_neg]
      rw [decide_eq_true_iff]
      rintro rfl
      exact hsuffix ⟨rest.reverse, by rw [← List.reverse_cons, ← hreverse, List.reverse_reverse]⟩
  have hnot : ¬ (path.toList.isEmpty = true ∧ path ≠ "") := by
    rintro ⟨hnil, hne⟩
    exact hne (String.toList_eq_nil_iff.1 (List.isEmpty_iff.1 hnil))
  rw [trimmed, hlast, List.reverse_reverse, if_neg hnot, String.ofList_toList]

/-- What writing a file does: the path leads to a place that is no directory and becomes the file. -/
theorem write_eq_ok (h : t.write path content = .ok t') :
    ∃ place, t.locate path = .ok place ∧ t.kindAt place ≠ some .directory ∧
      t' = ⟨t.files.insert (joined place) content.toUTF8⟩ := by
  obtain ⟨place, hlocate, hwritten⟩ := bind_eq_ok_iff.1 h
  cases hslash : path.endsWith "/" with
  | true =>
    rw [hslash] at hwritten
    cases hkind : t.kindAt place with
    | none => simp only [hkind] at hwritten; cases hwritten
    | some kind => cases kind <;> simp only [hkind] at hwritten <;> cases hwritten
  | false =>
    rw [hslash] at hwritten
    rw [trimmed_eq_self hslash] at hlocate
    refine ⟨place, hlocate, ?_⟩
    cases hkind : t.kindAt place with
    | none =>
      simp only [hkind] at hwritten
      cases hwritten
      simp
    | some kind =>
      cases kind with
      | file =>
        simp only [hkind] at hwritten
        cases hwritten
        simp
      | directory => simp only [hkind] at hwritten; cases hwritten

theorem locate_of_write (h : t.write path content = .ok t') :
    ∃ place, t'.locate path = .ok place ∧ t'.kindAt place = some .file ∧
      t'.files.get? (joined place) = some content.toUTF8 := by
  obtain ⟨place, hlocate, hkind, rfl⟩ := write_eq_ok h
  refine ⟨place, (keepsDirectories_insert hkind).locate_eq hlocate, ?_,
    SortedMap.get?_insert_self _ _ _⟩
  have hplace : ¬ (place = [] ∨ place = systemRoot) := by
    rintro (rfl | rfl) <;> exact hkind rfl
  rw [kindAt, if_neg hplace, if_pos]
  rw [SortedMap.contains_insert, beq_self_eq_true, Bool.true_or]

/-- What was written is read. -/
theorem read_of_write (h : t.write path content = .ok t') : t'.read path = .ok content.toUTF8 := by
  obtain ⟨place, hlocate, hkind, hget⟩ := locate_of_write h
  refine bind_eq_ok_iff.2 ⟨place, hlocate, ?_⟩
  simp only [hkind, hget]
  rfl

theorem run_write (t : FileTree) (path content : String) :
    ((disk (n := Id)).write path content).run t =
      match t.write path content with
      | .ok t' => (.ok (), t')
      | .error fault => (.error fault, t) := by
  cases hwrite : t.write path content with
  | ok t' =>
    simp only [disk, StateT.run_bind, StateT.run_get, pure_bind, hwrite]
    rfl
  | error fault =>
    simp only [disk, StateT.run_bind, StateT.run_get, pure_bind, hwrite]
    rfl

theorem write_of_run (h : ((disk (n := Id)).write path content).run t = (.ok (), t')) :
    t.write path content = .ok t' := by
  rw [run_write] at h
  cases hwrite : t.write path content with
  | error fault =>
    rw [hwrite] at h
    cases h
  | ok written =>
    rw [hwrite] at h
    cases h
    rfl

/-- The kind of what a path names. -/
def kind (t : FileTree) (path : String) : Option PathKind :=
  match t.locate path with
  | .ok place => t.kindAt place
  | .error _ => none

theorem run_kind (t : FileTree) (path : String) :
    ((disk (n := Id)).kind path).run t = (t.kind path, t) := by
  simp only [disk, kind, StateT.run_bind, StateT.run_get, pure_bind]
  cases t.locate path <;> rfl

theorem kind_frozen (t : FileTree) (path : String) : Id.run ((disk.frozen t).kind path) = t.kind path :=
  congrArg Prod.fst (run_kind t path)

/-- Files in memory are read back as they were written. -/
theorem lawful_disk : (disk (n := Id)).Lawful where
  kind_keeps path t := by rw [run_kind]
  read_keeps path t := rfl
  kind_of_write {path content t t'} h := by
    obtain ⟨place, hlocate, hkind, -⟩ := locate_of_write (write_of_run h)
    rw [run_kind, kind, hlocate]
    exact hkind
  read_of_write h := read_of_write (write_of_run h)

end FileTree

end SchemaRegistry
