import SchemaRegistry.Config.SettingPath
import SchemaRegistry.Proofs.SortedMap

/-!
# Merging layers of settings

A layer is merged entry by entry, and an entry may be a whole table, a setting under a path with dots, or
an item of a list. What is left at one place in the end, the key of a table at the outermost level
(`SettingPlace`), is said by the entries on their own: `SettingPlace.said` is what an entry sets there, and
`SettingPlace.Plain` excludes the entries that put something else than a table where the table belongs, or
a table where the setting belongs.

Writing an entry changes the place to what the entry says and leaves it alone if it says nothing
(`at?_putAt`), so after any number of layers the last one that says something has the last word
(`at?_ofLayers`). No plain entry destroys the table around the place (`Open.putAt`).

Only a key that counts items from the end of a list cannot always be written: the list may be too short.
Layers without such keys can be merged with any others (`exists_addLayer`).
-/

namespace SchemaRegistry

/-! ## Writing settings -/

namespace Setting

/-- The setting is a table. -/
def IsTable : Setting → Prop
  | .table _ _ => True
  | _ => False

theorem not_isTable_scalar (origin : Option String) (value : Scalar) :
    ¬ (Setting.scalar origin value).IsTable := id

theorem isTable_table (origin : Option String) (members : List (String × Setting)) :
    (Setting.table origin members).IsTable := trivial

theorem get?_setMember (target s : Setting) (key k : String) :
    (target.setMember key s).get? k = if k = key then some s else target.get? k :=
  lookup_insertEntry key k s target.asTable.2

theorem get?_nothing (key : String) : nothing.get? key = none := rfl

theorem get?_emptyTable (key : String) : emptyTable.get? key = none := rfl

/-- Only a table has something under a key. -/
theorem isTable_of_get? {s m : Setting} {key : String} (h : s.get? key = some m) : s.IsTable := by
  cases s with
  | scalar origin value => cases h
  | list origin items => cases h
  | table origin members => trivial

theorem isTable_put (key : String) (s target : Setting) : (put key s target).IsTable := by
  cases s <;> simp only [put, setMember] <;> trivial

theorem get?_put_of_ne {key k : String} (h : k ≠ Text.lowercase key) (s target : Setting) :
    (put key s target).get? k = target.get? k := by
  cases s <;> simp only [put, get?_setMember, if_neg h]

theorem get?_put_self {s : Setting} (hs : ¬ s.IsTable) (key : String) (target : Setting) :
    (put key s target).get? (Text.lowercase key) = some s := by
  cases s with
  | scalar origin value => simp only [put, get?_setMember, if_pos]
  | list origin items => simp only [put, get?_setMember, if_pos]
  | table origin members => exact absurd trivial hs

theorem get?_put_table (key : String) (origin : Option String) (members : List (String × Setting))
    (target : Setting) :
    (put key (.table origin members) target).get? (Text.lowercase key) =
      some (putAll members ((target.get? (Text.lowercase key)).getD emptyTable)) := by
  simp only [put, get?_setMember, if_pos]

theorem isTable_putAll (members : List (String × Setting)) {target : Setting} (h : target.IsTable) :
    (putAll members target).IsTable := by
  induction members generalizing target with
  | nil => exact h
  | cons e rest ih => exact ih (isTable_put e.1 e.2 target)

/-- The last member under a key, whose case does not matter. -/
def lastUnder (key : String) (members : List (String × Setting)) : Option Setting :=
  members.reverse.findSome? fun e => if Text.lowercase e.1 = key then some e.2 else none

theorem lastUnder_cons (key : String) (e : String × Setting) (rest : List (String × Setting)) :
    lastUnder key (e :: rest) =
      (lastUnder key rest).or (if Text.lowercase e.1 = key then some e.2 else none) := by
  rw [lastUnder, List.reverse_cons, List.findSome?_append, List.findSome?_singleton, ← lastUnder]

/-- After all members have been written, the last one under a key stands there, unless it is a table: that
would be merged into what was there before. -/
theorem get?_putAll {key : String} {members : List (String × Setting)}
    (h : ∀ s, lastUnder key members = some s → ¬ s.IsTable) (target : Setting) :
    (putAll members target).get? key = (lastUnder key members).or (target.get? key) := by
  induction members generalizing target with
  | nil => rfl
  | cons e rest ih =>
    rw [lastUnder_cons] at h ⊢
    cases hrest : lastUnder key rest with
    | some s =>
      rw [hrest] at h
      rw [putAll, ih (hrest ▸ h), hrest, Option.some_or, Option.some_or, Option.some_or]
    | none =>
      have hnone : ∀ s, lastUnder key rest = some s → ¬ s.IsTable := by simp [hrest]
      rw [hrest, Option.none_or] at h
      rw [putAll, ih hnone, hrest, Option.none_or, Option.none_or]
      by_cases hkey : Text.lowercase e.1 = key
      · rw [if_pos hkey] at h ⊢
        rw [← hkey, get?_put_self (h e.2 rfl), Option.some_or]
      · rw [if_neg hkey, get?_put_of_ne (Ne.symm hkey), Option.none_or]

end Setting

/-! ## Places -/

/-- A place for a setting: a key of a table at the outermost level. -/
structure SettingPlace where
  table : String
  key : String

namespace Setting

/-- The setting at a place. -/
def at? (s : Setting) (p : SettingPlace) : Option Setting := (s.get? p.table).bind (·.get? p.key)

/-- Where the table around a place belongs stands a table or nothing. -/
def Open (s : Setting) (p : SettingPlace) : Prop := ∀ part, s.get? p.table = some part → part.IsTable

theorem open_emptyTable (p : SettingPlace) : emptyTable.Open p := by
  intro part h
  cases h

theorem open_of_at? {s m : Setting} {p : SettingPlace} (h : s.at? p = some m) : s.Open p := by
  intro part hpart
  rw [at?, hpart, Option.bind_some] at h
  exact isTable_of_get? h

theorem at?_of_get? {s part : Setting} {p : SettingPlace} (h : s.get? p.table = some part) :
    s.at? p = part.get? p.key := by
  rw [at?, h, Option.bind_some]

/-- What stands in the place of the table, if it is the empty table or nothing that stands there else. -/
theorem get?_getD {s filler : Setting} {p : SettingPlace} (h : filler.get? p.key = none) :
    ((s.get? p.table).getD filler).get? p.key = s.at? p := by
  unfold at?
  cases s.get? p.table with
  | none => exact h
  | some part => rfl

end Setting

namespace SettingPlace

/-- What the entry with this path says about the place. -/
def said (p : SettingPlace) : SettingPath → Setting → Option Setting
  | [.key outer], .table _ members =>
    if Text.lowercase outer = p.table then Setting.lastUnder p.key members else none
  | [.key outer, .key inner], s =>
    if Text.lowercase outer = p.table ∧ Text.lowercase inner = p.key then some s else none
  | _, _ => none

/-- The entry with this path does not put something else than a table around the place, nor something into
the place that is not there as a whole. -/
def Keeps (p : SettingPlace) : SettingPath → Setting → Prop
  | [.key _], .table _ _ => True
  | [.key outer], _ => Text.lowercase outer ≠ p.table
  | [.key _, .key _], _ => True
  | .key outer :: .key inner :: _, _ => Text.lowercase outer = p.table → Text.lowercase inner ≠ p.key
  | .key outer :: .item _ :: _, _ => Text.lowercase outer ≠ p.table
  | _, _ => False

/-- The entry with this path keeps the place, and what it says about it is not a table. -/
structure Plain (p : SettingPlace) (path : SettingPath) (s : Setting) : Prop where
  keeps : p.Keeps path s
  not_isTable : ∀ v, p.said path s = some v → ¬ v.IsTable

end SettingPlace

namespace Setting

variable {p : SettingPlace} {path : SettingPath} {s : Setting}

/-- Writing at the end of a longer path writes the member on the way. -/
theorem putAt_key_cons {name : String} {step : SettingStep} {rest : SettingPath} {target out : Setting}
    (h : putAt s (.key name :: step :: rest) target = some out) :
    ∃ m, putAt s (step :: rest) ((target.get? (Text.lowercase name)).getD nothing) = some m ∧
      out = target.setMember (Text.lowercase name) m := by
  obtain ⟨m, hm, hout⟩ := Option.bind_eq_some_iff.1 h
  cases hout
  exact ⟨m, hm, rfl⟩

theorem isTable_putAt_key {name : String} {path : SettingPath} {target out : Setting}
    (h : putAt s (.key name :: path) target = some out) : out.IsTable := by
  cases path with
  | nil =>
    cases h
    exact isTable_put name s target
  | cons step path =>
    obtain ⟨m, -, rfl⟩ := putAt_key_cons h
    exact isTable_table _ _

theorem get?_putAt_of_ne {outer k : String} (hne : k ≠ Text.lowercase outer) {path : SettingPath}
    {target out : Setting} (h : putAt s (.key outer :: path) target = some out) :
    out.get? k = target.get? k := by
  cases path with
  | nil =>
    cases h
    exact get?_put_of_ne hne s target
  | cons step path =>
    obtain ⟨m, -, rfl⟩ := putAt_key_cons h
    rw [get?_setMember, if_neg hne]

theorem get?_putAt_self {outer : String} {step : SettingStep} {rest : SettingPath} {target out : Setting}
    (h : putAt s (.key outer :: step :: rest) target = some out) :
    ∃ m, putAt s (step :: rest) ((target.get? (Text.lowercase outer)).getD nothing) = some m ∧
      out.get? (Text.lowercase outer) = some m := by
  obtain ⟨m, hm, rfl⟩ := putAt_key_cons h
  exact ⟨m, hm, by rw [get?_setMember, if_pos rfl]⟩

/-- Where an item was put there is a list. -/
theorem setItem_ne_scalar {target : Setting} {position : Int} {f : Option Setting → Option Setting}
    {origin : Option String} {v : Scalar} : target.setItem position f ≠ some (.scalar origin v) := by
  intro h
  obtain ⟨i, -, hitem⟩ := Option.bind_eq_some_iff.1 h
  obtain ⟨item, -, hout⟩ := Option.bind_eq_some_iff.1 hitem
  cases hout

/-- An entry whose path begins with another table leaves the place alone. -/
theorem at?_putAt_of_ne {outer : String} (houter : Text.lowercase outer ≠ p.table) {rest : SettingPath}
    {target out : Setting} (h : putAt s (.key outer :: rest) target = some out) :
    out.at? p = target.at? p := by
  rw [at?, get?_putAt_of_ne (Ne.symm houter) h, ← at?]

/-- Writing an entry changes a place to what the entry says about it, if it says something. -/
theorem at?_putAt (hplain : p.Plain path s) {target out : Setting} (h : putAt s path target = some out) :
    out.at? p = (p.said path s).or (target.at? p) := by
  obtain ⟨hkeeps, hsaid⟩ := hplain
  match path with
  | [] => exact absurd hkeeps id
  | .item _ :: _ => exact absurd hkeeps id
  | [.key outer] =>
    by_cases houter : Text.lowercase outer = p.table
    · cases s with
      | scalar origin value => exact absurd houter hkeeps
      | list origin items => exact absurd houter hkeeps
      | table origin members =>
        simp only [SettingPlace.said, if_pos houter] at hsaid ⊢
        cases h
        have hget := get?_put_table outer origin members target
        rw [houter] at hget
        rw [at?_of_get? hget, get?_putAll hsaid, get?_getD (get?_emptyTable _)]
    · have hnone : p.said [.key outer] s = none := by
        cases s <;> simp [SettingPlace.said, houter]
      rw [hnone, Option.none_or, at?_putAt_of_ne houter h]
  | [.key outer, .key inner] =>
    simp only [SettingPlace.said] at hsaid ⊢
    by_cases houter : Text.lowercase outer = p.table
    · obtain ⟨m, hm, hget⟩ := get?_putAt_self h
      rw [houter] at hm hget
      cases hm
      rw [at?_of_get? hget]
      by_cases hinner : Text.lowercase inner = p.key
      · rw [if_pos ⟨houter, hinner⟩] at hsaid ⊢
        rw [← hinner, get?_put_self (hsaid s rfl), Option.some_or]
      · rw [if_neg fun h => hinner h.2, Option.none_or, get?_put_of_ne (Ne.symm hinner),
          get?_getD (get?_nothing _)]
    · rw [if_neg fun h => houter h.1, Option.none_or, at?_putAt_of_ne houter h]
  | .key outer :: .key inner :: step :: rest =>
    simp only [SettingPlace.said, Option.none_or]
    by_cases houter : Text.lowercase outer = p.table
    · obtain ⟨m, hm, hget⟩ := get?_putAt_self h
      rw [houter] at hm hget
      rw [at?_of_get? hget, get?_putAt_of_ne (Ne.symm (hkeeps houter)) hm, get?_getD (get?_nothing _)]
    · exact at?_putAt_of_ne houter h
  | .key outer :: .item position :: rest =>
    simp only [SettingPlace.said, Option.none_or]
    exact at?_putAt_of_ne hkeeps h

/-- An entry that keeps a place does not destroy the table around it. -/
theorem Open.putAt {target out : Setting} (ht : target.Open p) (hkeeps : p.Keeps path s)
    (h : putAt s path target = some out) : out.Open p := by
  intro part hpart
  match path with
  | [] => exact absurd hkeeps id
  | .item _ :: _ => exact absurd hkeeps id
  | .key outer :: rest =>
    by_cases houter : Text.lowercase outer = p.table
    · match rest with
      | [] =>
        cases s with
        | scalar origin value => exact absurd houter hkeeps
        | list origin items => exact absurd houter hkeeps
        | table origin members =>
          cases h
          have hget := get?_put_table outer origin members target
          rw [houter] at hget
          cases hget.symm.trans hpart
          apply isTable_putAll
          cases htarget : target.get? p.table with
          | none => trivial
          | some old => exact ht old htarget
      | .item position :: rest => exact absurd houter hkeeps
      | .key inner :: rest =>
        obtain ⟨m, hm, hget⟩ := get?_putAt_self h
        rw [houter] at hm hget
        cases hget.symm.trans hpart
        exact isTable_putAt_key hm
    · rw [get?_putAt_of_ne (Ne.symm houter) h] at hpart
      exact ht part hpart

end Setting

/-! ## Paths that can be followed -/

namespace SettingPath

/-- The path counts no item from the end of its list. -/
def CountsForward (path : SettingPath) : Prop :=
  ∀ position, SettingStep.item position ∈ path → 0 ≤ position

theorem countsForward_nil : CountsForward [] := fun _ h => absurd h List.not_mem_nil

theorem CountsForward.key {rest : SettingPath} (h : CountsForward rest) (name : String) :
    CountsForward (.key name :: rest) := by
  intro position hmem
  obtain hhead | hrest := List.mem_cons.1 hmem
  · cases hhead
  · exact h position hrest

theorem CountsForward.tail {step : SettingStep} {rest : SettingPath} (h : CountsForward (step :: rest)) :
    CountsForward rest := fun position hmem => h position (List.mem_cons_of_mem _ hmem)

end SettingPath

namespace Setting

theorem exists_setItem {position : Int} (hposition : 0 ≤ position) {f : Option Setting → Option Setting}
    (h : ∀ old, ∃ s, f old = some s) (target : Setting) : ∃ out, target.setItem position f = some out := by
  obtain ⟨s, hs⟩ := h ((target.asList.2 ++
    List.replicate (position.toNat + 1 - target.asList.2.length) nothing)[position.toNat]?)
  simp only [setItem, index?, if_pos hposition, Option.bind_eq_bind, Option.bind_some, hs]
  exact ⟨_, rfl⟩

/-- A setting can be written at the end of every path that counts forward. -/
theorem exists_putAt {path : SettingPath} (h : path.CountsForward) (s target : Setting) :
    ∃ out, putAt s path target = some out := by
  match path with
  | [] => exact ⟨target, rfl⟩
  | [.key name] => exact ⟨put name s target, rfl⟩
  | [.item position] =>
    exact exists_setItem (h position List.mem_cons_self) (fun _ => ⟨s, rfl⟩) target
  | .key name :: step :: rest =>
    obtain ⟨m, hm⟩ := exists_putAt h.tail s ((target.get? (Text.lowercase name)).getD nothing)
    exact ⟨_, Option.bind_eq_some_iff.2 ⟨m, hm, rfl⟩⟩
  | .item position :: step :: rest =>
    exact exists_setItem (h position List.mem_cons_self)
      (fun old => exists_putAt h.tail s (old.getD nothing)) target

end Setting

/-! ## Layers -/

namespace Layer

/-- Every entry of the layer is plain at the place. -/
def Plain (layer : Layer) (p : SettingPlace) : Prop :=
  ∀ e ∈ layer, p.Plain (SettingPath.ofKey e.1) e.2

/-- What the layer says about the place: what the last of its entries does that says something. -/
def said (layer : Layer) (p : SettingPlace) : Option Setting :=
  layer.reverse.findSome? fun e => p.said (SettingPath.ofKey e.1) e.2

theorem said_append (layer more : Layer) (p : SettingPlace) :
    said (layer ++ more) p = (said more p).or (said layer p) := by
  rw [said, List.reverse_append, List.findSome?_append]
  rfl

theorem said_cons (e : String × Setting) (rest : Layer) (p : SettingPlace) :
    said (e :: rest) p = (said rest p).or (p.said (SettingPath.ofKey e.1) e.2) := by
  rw [← List.singleton_append, said_append]
  congr 1
  simp [said]

/-- No key of the layer counts items from the end of a list. -/
def CountsForward (layer : Layer) : Prop := ∀ e ∈ layer, (SettingPath.ofKey e.1).CountsForward

end Layer

namespace Setting

variable {p : SettingPlace} {target out : Setting}

theorem addLayer_cons {e : String × Setting} {rest : Layer} (h : target.addLayer (e :: rest) = some out) :
    ∃ mid, Setting.putAt e.2 (SettingPath.ofKey e.1) target = some mid ∧ mid.addLayer rest = some out :=
  Option.bind_eq_some_iff.1 h

/-- A layer changes a place to what it says about it, if it says something. -/
theorem at?_addLayer {layer : Layer} (hplain : layer.Plain p) (h : target.addLayer layer = some out) :
    out.at? p = (layer.said p).or (target.at? p) := by
  induction layer generalizing target with
  | nil =>
    cases h
    rfl
  | cons e rest ih =>
    obtain ⟨he, hrest⟩ := List.forall_mem_cons.1 hplain
    obtain ⟨mid, hmid, hout⟩ := addLayer_cons h
    rw [ih hrest hout, at?_putAt he hmid, Layer.said_cons, Option.or_assoc]

theorem Open.addLayer {layer : Layer} (ht : target.Open p) (hplain : layer.Plain p)
    (h : target.addLayer layer = some out) : out.Open p := by
  induction layer generalizing target with
  | nil =>
    cases h
    exact ht
  | cons e rest ih =>
    obtain ⟨he, hrest⟩ := List.forall_mem_cons.1 hplain
    obtain ⟨mid, hmid, hout⟩ := addLayer_cons h
    exact ih (ht.putAt he.keeps hmid) hrest hout

/-- A layer whose keys count forward can be added to any settings. -/
theorem exists_addLayer {layer : Layer} (h : layer.CountsForward) (target : Setting) :
    ∃ out, target.addLayer layer = some out := by
  induction layer generalizing target with
  | nil => exact ⟨target, rfl⟩
  | cons e rest ih =>
    obtain ⟨he, hrest⟩ := List.forall_mem_cons.1 h
    obtain ⟨mid, hmid⟩ := exists_putAt he e.2 target
    obtain ⟨out, hout⟩ := ih hrest mid
    exact ⟨out, Option.bind_eq_some_iff.2 ⟨mid, hmid, hout⟩⟩

/-- The last layer that says something about a place has the last word. -/
theorem at?_foldlM_addLayer {layers : List Layer} (hplain : ∀ layer ∈ layers, layer.Plain p)
    (h : layers.foldlM Setting.addLayer target = some out) :
    out.at? p = (layers.reverse.findSome? (Layer.said · p)).or (target.at? p) := by
  induction layers generalizing target with
  | nil =>
    cases h
    rfl
  | cons layer rest ih =>
    obtain ⟨hlayer, hrest⟩ := List.forall_mem_cons.1 hplain
    obtain ⟨mid, hmid, hout⟩ := Option.bind_eq_some_iff.1 h
    rw [ih hrest hout, at?_addLayer hlayer hmid, List.reverse_cons, List.findSome?_append,
      List.findSome?_singleton, Option.or_assoc]

theorem Open.foldlM_addLayer {layers : List Layer} (ht : target.Open p)
    (hplain : ∀ layer ∈ layers, layer.Plain p)
    (h : layers.foldlM Setting.addLayer target = some out) : out.Open p := by
  induction layers generalizing target with
  | nil =>
    cases h
    exact ht
  | cons layer rest ih =>
    obtain ⟨hlayer, hrest⟩ := List.forall_mem_cons.1 hplain
    obtain ⟨mid, hmid, hout⟩ := Option.bind_eq_some_iff.1 h
    exact ih (ht.addLayer hlayer hmid) hrest hout

theorem exists_foldlM_addLayer {layers : List Layer} (h : ∀ layer ∈ layers, layer.CountsForward)
    (target : Setting) : ∃ out, layers.foldlM Setting.addLayer target = some out := by
  induction layers generalizing target with
  | nil => exact ⟨target, rfl⟩
  | cons layer rest ih =>
    obtain ⟨hlayer, hrest⟩ := List.forall_mem_cons.1 h
    obtain ⟨mid, hmid⟩ := exists_addLayer hlayer target
    obtain ⟨out, hout⟩ := ih hrest mid
    exact ⟨out, Option.bind_eq_some_iff.2 ⟨mid, hmid, hout⟩⟩

variable {layers : List Layer}

theorem at?_ofLayers (hplain : ∀ layer ∈ layers, layer.Plain p) (h : ofLayers layers = some out) :
    out.at? p = layers.reverse.findSome? (Layer.said · p) := by
  rw [at?_foldlM_addLayer hplain h, at?, get?_emptyTable, Option.bind_none, Option.or_none]

theorem open_ofLayers (hplain : ∀ layer ∈ layers, layer.Plain p) (h : ofLayers layers = some out) :
    out.Open p :=
  (open_emptyTable p).foldlM_addLayer hplain h

theorem exists_ofLayers (h : ∀ layer ∈ layers, layer.CountsForward) : ∃ out, ofLayers layers = some out :=
  exists_foldlM_addLayer h emptyTable

/-- A further layer is added on top of those before it. -/
theorem ofLayers_append_singleton (layers : List Layer) (layer : Layer) :
    ofLayers (layers ++ [layer]) = (ofLayers layers).bind (·.addLayer layer) := by
  rw [ofLayers, List.foldlM_append]
  simp only [List.foldlM_cons, List.foldlM_nil, bind_pure]
  rfl

end Setting

end SchemaRegistry
