import SchemaRegistry.Proofs.Config.Overriding
import SchemaRegistry.Proofs.Json.Numerals

/-!
# Names in variables

A variable is read as a truth value or a number where it looks like one, and where a name is wanted it is
the text of that value. So a name can change on its way through a variable, but only if it is a truth value
in another case or a number that is not written in the usual way (`variables_set_names`): an integer of 64
bits is read as it is printed (`readInteger?_toString`), and any other text is kept.

The name is that of the variable whatever the files hold, and whatever other variables there are, if none
of them sets the same name, or the section of the names as a whole or by position
(`SettingPlace.Replaces`). Only these can bring another plain value into the place (`Setting.Shows.putAt`).
-/

namespace SchemaRegistry

/-! ## A place that only one variable writes to -/

/-- An entry with this path puts something into the place, or into the place of the table around it. -/
def SettingPlace.Replaces (p : SettingPlace) : SettingPath → Prop
  | [] => False
  | .item _ :: _ => True
  | [.key outer] => Text.lowercase outer = p.table
  | .key outer :: .item _ :: _ => Text.lowercase outer = p.table
  | [.key outer, .key inner] => Text.lowercase outer = p.table ∧ Text.lowercase inner = p.key
  | .key _ :: .key _ :: _ :: _ => False

namespace Setting

variable {p : SettingPlace} {value : Scalar}

/-- There is something at the place, and it is no other plain value than this one. -/
def Shows (s : Setting) (p : SettingPlace) (value : Scalar) : Prop :=
  ∃ m, s.at? p = some m ∧ ∀ origin v, m = .scalar origin v → v = value

/-- At the beginning of a path there is a table or a list. -/
theorem putAt_cons_ne_scalar {s target : Setting} {step : SettingStep} {path : SettingPath}
    {origin : Option String} {v : Scalar} : putAt s (step :: path) target ≠ some (.scalar origin v) := by
  intro h
  cases step with
  | key name => exact not_isTable_scalar origin v (isTable_putAt_key h)
  | item position => cases path <;> exact setItem_ne_scalar h

/-- An entry that says a plain value is what shows at the place, whatever was there before. -/
theorem shows_putAt {path : SettingPath} {origin : Option String} (hkeeps : p.Keeps path (.scalar origin value))
    (hsaid : p.said path (.scalar origin value) = some (.scalar origin value)) {target out : Setting}
    (h : putAt (.scalar origin value) path target = some out) : out.Shows p value := by
  have hplain : p.Plain path (.scalar origin value) := by
    refine ⟨hkeeps, fun v hv => ?_⟩
    cases hsaid.symm.trans hv
    exact not_isTable_scalar origin value
  refine ⟨.scalar origin value, ?_, fun origin v hv => by cases hv; rfl⟩
  rw [at?_putAt hplain h, hsaid, Option.some_or]

/-- An entry that says nothing about a place leaves it as it is. -/
theorem at?_putAt_of_said_none {path : SettingPath} {s target out : Setting} (hkeeps : p.Keeps path s)
    (hsaid : p.said path s = none) (h : putAt s path target = some out) : out.at? p = target.at? p := by
  have hplain : p.Plain path s := ⟨hkeeps, by simp [hsaid]⟩
  rw [at?_putAt hplain h, hsaid, Option.none_or]

/-- Only an entry that replaces what is at a place gives it another plain value. An entry that goes on from
there leaves a table or a list. -/
theorem Shows.putAt {s target out : Setting} (hshows : target.Shows p value) {path : SettingPath}
    (hpath : ¬ p.Replaces path) (h : putAt s path target = some out) : out.Shows p value := by
  obtain ⟨m, hm, hvalue⟩ := hshows
  match path with
  | [] =>
    cases h
    exact ⟨m, hm, hvalue⟩
  | .item _ :: _ => exact absurd trivial hpath
  | [.key outer] => exact ⟨m, (at?_putAt_of_ne hpath h).trans hm, hvalue⟩
  | .key outer :: .item position :: rest => exact ⟨m, (at?_putAt_of_ne hpath h).trans hm, hvalue⟩
  | [.key outer, .key inner] =>
    have hkeeps : p.Keeps [.key outer, .key inner] s := trivial
    exact ⟨m, (at?_putAt_of_said_none hkeeps (if_neg hpath) h).trans hm, hvalue⟩
  | .key outer :: .key inner :: step :: rest =>
    by_cases hplace : Text.lowercase outer = p.table ∧ Text.lowercase inner = p.key
    · obtain ⟨houter, hinner⟩ := hplace
      obtain ⟨table, htable, hout⟩ := get?_putAt_self h
      obtain ⟨member, hmember, hinto⟩ := get?_putAt_self htable
      rw [houter] at hout
      rw [hinner] at hinto
      refine ⟨member, (at?_of_get? hout).trans hinto, ?_⟩
      rintro origin v rfl
      exact absurd hmember putAt_cons_ne_scalar
    · have hkeeps : p.Keeps (.key outer :: .key inner :: step :: rest) s :=
        fun houter hinner => hplace ⟨houter, hinner⟩
      exact ⟨m, (at?_putAt_of_said_none hkeeps rfl h).trans hm, hvalue⟩

section Layers

variable {e : String × Setting} {layer : Layer} {target out : Setting}

/-- The entry of a layer makes the place show the value. -/
def Puts (e : String × Setting) (p : SettingPlace) (value : Scalar) : Prop :=
  ∀ target out, Setting.putAt e.2 (SettingPath.ofKey e.1) target = some out → out.Shows p value

theorem Shows.addLayer (hputs : Puts e p value)
    (hothers : ∀ e' ∈ layer, e' ≠ e → ¬ p.Replaces (SettingPath.ofKey e'.1))
    (hshows : target.Shows p value) (h : target.addLayer layer = some out) : out.Shows p value := by
  induction layer generalizing target with
  | nil =>
    cases h
    exact hshows
  | cons e' rest ih =>
    obtain ⟨he', hrest⟩ := List.forall_mem_cons.1 hothers
    obtain ⟨mid, hmid, hout⟩ := addLayer_cons h
    refine ih hrest ?_ hout
    by_cases heq : e' = e
    · exact hputs target mid (heq ▸ hmid)
    · exact hshows.putAt (he' heq) hmid

/-- A place shows what one entry of a layer puts there, if no other entry replaces it. -/
theorem shows_addLayer (hmem : e ∈ layer) (hputs : Puts e p value)
    (hothers : ∀ e' ∈ layer, e' ≠ e → ¬ p.Replaces (SettingPath.ofKey e'.1))
    (h : target.addLayer layer = some out) : out.Shows p value := by
  obtain ⟨before, after, rfl⟩ := List.append_of_mem hmem
  rw [Setting.addLayer, List.foldlM_append] at h
  obtain ⟨mid, -, hafter⟩ := Option.bind_eq_some_iff.1 h
  obtain ⟨mid', hmid', hout⟩ := addLayer_cons hafter
  exact (hputs mid mid' hmid').addLayer hputs
    (fun e' he' => hothers e' (List.mem_append_right _ (List.mem_cons_of_mem _ he'))) hout

end Layers

theorem readText_eq_ok {s : Setting} {path name : String} (h : s.readText path = .ok name) :
    ∃ origin v, s = .scalar origin v ∧ v.toText? = some name := by
  cases s with
  | scalar origin v =>
    refine ⟨origin, v, rfl, ?_⟩
    unfold readText at h
    cases htext : v.toText? with
    | none =>
      simp only [htext] at h
      cases h
    | some s =>
      simp only [htext] at h
      cases h
      rfl
  | list origin items => cases h
  | table origin members => cases h

end Setting

/-! ## Numbers and words -/

section Numerals

open Decimal

theorem digitsValue_toDigits (n : Nat) : digitsValue (Nat.toDigits 10 n) = n :=
  Nat.ofDigitChars_ten_toDigits

theorem isNumeral_toDigits (n : Nat) : isNumeral (Nat.toDigits 10 n) = true := by
  have hdigits : (Nat.toDigits 10 n).all (·.isDigit) = true :=
    List.all_eq_true.2 fun c hc => Json.isDigit_of_mem_toDigits hc
  rw [isNumeral, hdigits, Bool.and_true, Bool.not_eq_true', List.isEmpty_eq_false_iff]
  exact Nat.toDigits_ne_nil

/-- A row of digits has no sign. -/
theorem takeSign_of_isNumeral {cs : List Char} (h : isNumeral cs = true) : takeSign cs = (false, cs) := by
  unfold takeSign
  split
  · simp [isNumeral] at h
  · simp [isNumeral] at h
  · rfl

/-- The text of an integer: digits, after a minus if it is negative. -/
theorem toList_toString_ofNat (n : Nat) : (toString (Int.ofNat n)).toList = Nat.toDigits 10 n := by
  simp [toString, Int.repr, Nat.toList_repr]

theorem toList_toString_negSucc (n : Nat) :
    (toString (Int.negSucc n)).toList = '-' :: Nat.toDigits 10 (n + 1) := by
  simp [toString, Int.repr, Nat.toList_repr]

/-- An integer of 64 bits is read as it is printed. -/
theorem readInteger?_toString {n : Int} (h : -0x8000000000000000 ≤ n ∧ n < 0x8000000000000000) :
    readInteger? (toString n).toList = some n := by
  cases n with
  | ofNat n =>
    rw [toList_toString_ofNat, readInteger?, takeSign_of_isNumeral (isNumeral_toDigits n)]
    simp only [isNumeral_toDigits, if_true, signedValue, Bool.false_eq_true, if_false,
      digitsValue_toDigits]
    exact if_pos h
  | negSucc n =>
    rw [toList_toString_negSucc, readInteger?, takeSign]
    simp only [isNumeral_toDigits, if_true, signedValue, digitsValue_toDigits]
    exact if_pos h

/-- A text that begins with a character before the letters is no word in any case. -/
theorem Text.lowercase_ne_of_head {c d : Char} (hc : c.toNat < 0x41) (hd : 0x41 ≤ d.toNat)
    (cs ds : List Char) : Text.lowercase (String.ofList (c :: cs)) ≠ String.ofList (d :: ds) := by
  have hsmall : Text.smallLetter c = c := by
    rw [smallLetter, if_pos (by omega), Char.toLower, dif_neg]
    exact fun h => absurd h.1 (Nat.not_le.2 hc)
  have hsigma : c ≠ 'Σ' := by
    rintro rfl
    exact absurd hc (by decide)
  have hdot : c ≠ 'İ' := by
    rintro rfl
    exact absurd hc (by decide)
  rw [Text.lowercase, String.toList_ofList, Text.lowercaseChars, hsmall, if_neg hsigma, if_neg hdot]
  intro h
  obtain rfl : c = d := (List.cons.inj (String.ofList_injective h)).1
  omega

/-- The text of an integer begins with a minus or a digit. -/
theorem exists_toString_integer (n : Int) :
    ∃ c cs, toString n = String.ofList (c :: cs) ∧ c.toNat < 0x41 := by
  cases n with
  | ofNat n =>
    obtain ⟨c, cs, hcs⟩ := List.exists_cons_of_ne_nil (Nat.toDigits_ne_nil (n := n) (b := 10))
    have hdigit : c.isDigit = true :=
      Json.isDigit_of_mem_toDigits (n := n) (hcs ▸ List.mem_cons_self)
    refine ⟨c, cs, ?_, ?_⟩
    · rw [← hcs, ← toList_toString_ofNat, String.ofList_toList]
    · have hle : c.toNat ≤ 57 := (Char.isDigit_iff_toNat.1 hdigit).2
      omega
  | negSucc n =>
    refine ⟨'-', Nat.toDigits 10 (n + 1), ?_, by decide⟩
    rw [← toList_toString_negSucc, String.ofList_toList]

/-- An integer does not read as a truth value. -/
theorem lowercase_integer_ne (n : Int) (b : Bool) : Text.lowercase (toString n) ≠ toString b := by
  obtain ⟨c, cs, hn, hc⟩ := exists_toString_integer n
  rw [hn]
  cases b with
  | true => exact Text.lowercase_ne_of_head hc (by decide) cs "rue".toList
  | false => exact Text.lowercase_ne_of_head hc (by decide) cs "alse".toList

end Numerals

namespace Scalar

variable {s : String}

theorem ofVariable_word {b : Bool} (h : Text.lowercase s = toString b) : ofVariable s = .boolean b := by
  rw [ofVariable, h]
  cases b <;> rfl

section NoWord

variable (hword : ∀ b : Bool, Text.lowercase s ≠ toString b)

include hword

theorem ne_true_and_ne_false : Text.lowercase s ≠ "true" ∧ Text.lowercase s ≠ "false" :=
  ⟨hword true, hword false⟩

theorem ofVariable_integer {n : Int} (h : Decimal.readInteger? s.toList = some n) :
    ofVariable s = .integer n := by
  obtain ⟨htrue, hfalse⟩ := ne_true_and_ne_false hword
  rw [ofVariable, if_neg htrue, if_neg hfalse, h]

theorem ofVariable_float (hinteger : Decimal.readInteger? s.toList = none) {x : Float}
    (h : Decimal.readFloat? s.toList = some x) : ofVariable s = .float x := by
  obtain ⟨htrue, hfalse⟩ := ne_true_and_ne_false hword
  rw [ofVariable, if_neg htrue, if_neg hfalse, hinteger, h]

theorem ofVariable_text (hinteger : Decimal.readInteger? s.toList = none)
    (hfloat : Decimal.readFloat? s.toList = none) : ofVariable s = .text s := by
  obtain ⟨htrue, hfalse⟩ := ne_true_and_ne_false hword
  rw [ofVariable, if_neg htrue, if_neg hfalse, hinteger, hfloat]

end NoWord

end Scalar

/-! ## Names -/

theorem Environment.mem_layer_iff {env : Environment} {e : String × Setting} :
    e ∈ env.layer ↔ ∃ v ∈ env.settings, ∃ key, settingKey? v.1 = some key ∧
      e = (key, .scalar origin (.ofVariable v.2)) := by
  rw [layer, List.mem_filterMap]
  constructor
  · rintro ⟨v, hv, he⟩
    obtain ⟨key, hkey, rfl⟩ := Option.map_eq_some_iff.1 he
    exact ⟨v, hv, key, hkey, rfl⟩
  · rintro ⟨v, hv, key, hkey, rfl⟩
    exact ⟨v, hv, Option.map_eq_some_iff.2 ⟨key, hkey, rfl⟩⟩

/-- The name that a variable sets is the text of the value that the variable is read as. -/
theorem toText?_of_load {disk : Disk Id} {env : Environment} {path : Option String} {c : Config}
    {part : SchemaPart} {s : String}
    (hmem : ((ConfigPart.name part).variableName, s) ∈ env.settings)
    (hothers : ∀ v ∈ env.settings, v ≠ ((ConfigPart.name part).variableName, s) → ∀ key,
      Environment.settingKey? v.1 = some key →
        ¬ (ConfigPart.name part).place.Replaces (SettingPath.ofKey key))
    (hload : Id.run (Config.load disk env path) = .ok c) :
    (Scalar.ofVariable s).toText? = some (c.schema.get part) := by
  obtain ⟨optional, given, -, -, hc⟩ := Config.load_eq_ok_iff.1 hload
  let x := ConfigPart.name part
  let own : Setting := .scalar Environment.origin (.ofVariable s)
  have hentry : (x.path, own) ∈ env.layer :=
    Environment.mem_layer_iff.2 ⟨_, hmem, _, x.settingKey?_variableName, rfl⟩
  have hputs : Setting.Puts (x.path, own) x.place (.ofVariable s) := fun _ _ =>
    Setting.shows_putAt (x.keeps_path x.place own) ((x.said_path x own).trans (if_pos rfl))
  have hreplaces : ∀ e ∈ env.layer, e ≠ (x.path, own) → ¬ x.place.Replaces (SettingPath.ofKey e.1) := by
    intro e he hne
    obtain ⟨v, hv, key, hkey, rfl⟩ := Environment.mem_layer_iff.1 he
    refine hothers v hv ?_ key hkey
    rintro rfl
    cases x.settingKey?_variableName.symm.trans hkey
    exact hne rfl
  obtain ⟨merged, hmerged, hread⟩ := Config.ofLayers_eq_ok_iff.1 hc
  rw [Setting.ofLayers_append_singleton] at hmerged
  obtain ⟨below, -, hadded⟩ := Option.bind_eq_some_iff.1 hmerged
  obtain ⟨m, hm, hvalue⟩ := Setting.shows_addLayer hentry hputs hreplaces hadded
  have hname := Config.readFrom_of_ofSetting hread (Setting.open_of_at? hm)
  rw [hm] at hname
  obtain ⟨origin, v, rfl, htext⟩ := Setting.readText_eq_ok hname
  rw [← hvalue origin v rfl, htext]

/-- A variable for a name sets it to the word, the integer or the number that it reads as, written in the
usual way, and to itself if it reads as none of them. -/
theorem variables_set_names {disk : Disk Id} {env : Environment} {path : Option String} {c : Config}
    {part : SchemaPart} {s : String}
    (hmem : ((ConfigPart.name part).variableName, s) ∈ env.settings)
    (hothers : ∀ v ∈ env.settings, v ≠ ((ConfigPart.name part).variableName, s) → ∀ key,
      Environment.settingKey? v.1 = some key →
        ¬ (ConfigPart.name part).place.Replaces (SettingPath.ofKey key))
    (hload : Id.run (Config.load disk env path) = .ok c) :
    (∀ b : Bool, Text.lowercase s = toString b → c.schema.get part = toString b) ∧
      ((∀ b : Bool, Text.lowercase s ≠ toString b) →
        (∀ n, Decimal.readInteger? s.toList = some n → c.schema.get part = toString n) ∧
        (Decimal.readInteger? s.toList = none →
          (∀ x, Decimal.readFloat? s.toList = some x →
            c.schema.get part = Scalar.plainLayout.text x) ∧
          (Decimal.readFloat? s.toList = none → c.schema.get part = s))) ∧
      ∀ n : Int, -0x8000000000000000 ≤ n ∧ n < 0x8000000000000000 → s = toString n →
        c.schema.get part = s := by
  have htext := toText?_of_load hmem hothers hload
  have hinteger : (∀ b : Bool, Text.lowercase s ≠ toString b) → ∀ n,
      Decimal.readInteger? s.toList = some n → c.schema.get part = toString n := by
    intro hword n hn
    rw [Scalar.ofVariable_integer hword hn] at htext
    exact (Option.some.inj htext).symm
  refine ⟨?_, fun hword => ⟨hinteger hword, fun hnone => ⟨?_, ?_⟩⟩, ?_⟩
  · intro b hb
    rw [Scalar.ofVariable_word hb] at htext
    exact (Option.some.inj htext).symm
  · intro x hx
    rw [Scalar.ofVariable_float hword hnone hx] at htext
    exact (Option.some.inj htext).symm
  · intro hnone'
    rw [Scalar.ofVariable_text hword hnone hnone'] at htext
    exact (Option.some.inj htext).symm
  · rintro n hrange rfl
    exact hinteger (lowercase_integer_ne n) n (readInteger?_toString hrange)

/-- A number with zeros in front as the name of the mutation, and a variable for a switch. -/
def numberedVariables : List (String × String) :=
  [("ASSEMBLY__SCHEMA__MUTATION", "007"), ("ASSEMBLY__RULES__FIELD_IMPORTS_EXIST", "false")]

/-- Two variables for the same name. -/
def doubledVariables : List (String × String) :=
  [("ASSEMBLY__SCHEMA__MUTATION", "root"), ("assembly__schema__mutation", "trunk")]

/-- Where there are no files, the variables are all there is. -/
theorem load_without_files (settings : List (String × String)) :
    Id.run (Config.load (Disk.ofOverrides []) ⟨settings, none⟩ none) =
      Config.ofLayers [[], [], [], Environment.layer ⟨settings, none⟩] := by
  have habsent : ∀ place, Id.run (Layer.ofOptionalFile (Disk.ofOverrides []) place) = .ok [] := by
    intro place
    have hfile : Id.run (Layer.ofFile (Disk.ofOverrides []) place) = .error (.notFound place) :=
      ofFile_absent (fun h => by cases h) fun _ _ _ h => by cases h
    rw [Layer.ofOptionalFile, Id.run_bind, hfile]
    rfl
  simp only [Config.run_load, habsent]
  rfl

theorem load_numberedVariables :
    Id.run (Config.load (Disk.ofOverrides []) ⟨numberedVariables, none⟩ none) =
      .ok ⟨⟨"builtins", "7", "subscription"⟩, ⟨false, true⟩⟩ := by
  have hseven : Scalar.ofVariable "007" = .integer 7 := by cbv
  have hfalse : Scalar.ofVariable "false" = .boolean false := Scalar.ofVariable_toString false
  have hlayer : Environment.layer ⟨numberedVariables, none⟩ =
      [("schema.mutation", .scalar Environment.origin (.integer 7)),
        ("rules.field_imports_exist", .scalar Environment.origin (.boolean false))] := by
    simp only [Environment.layer, numberedVariables, List.filterMap_cons, List.filterMap_nil, hseven,
      hfalse]
    rfl
  rw [load_without_files, hlayer]
  cbv

theorem load_doubledVariables :
    Id.run (Config.load (Disk.ofOverrides []) ⟨doubledVariables, none⟩ none) =
      .ok ⟨⟨"builtins", "trunk", "subscription"⟩, ⟨true, true⟩⟩ := by
  have hroot : Scalar.ofVariable "root" = .text "root" := by cbv
  have htrunk : Scalar.ofVariable "trunk" = .text "trunk" := by cbv
  have hlayer : Environment.layer ⟨doubledVariables, none⟩ =
      [("schema.mutation", .scalar Environment.origin (.text "root")),
        ("schema.mutation", .scalar Environment.origin (.text "trunk"))] := by
    simp only [Environment.layer, doubledVariables, List.filterMap_cons, List.filterMap_nil, hroot,
      htrunk]
    rfl
  rw [load_without_files, hlayer]
  cbv

theorem numbered_variable_sets_name :
    ∃ c, Id.run (Config.load (Disk.ofOverrides []) ⟨numberedVariables, none⟩ none) = .ok c ∧
      c.schema.get .mutation = toString (7 : Int) := by
  refine ⟨_, load_numberedVariables, ?_⟩
  have hmem : ((ConfigPart.name .mutation).variableName, "007") ∈ numberedVariables :=
    List.mem_cons_self
  have hword : ∀ b : Bool, Text.lowercase "007" ≠ toString b := by decide
  have hseven : Decimal.readInteger? "007".toList = some 7 := by decide
  refine ((variables_set_names hmem ?_ load_numberedVariables).2.1 hword).1 7 hseven
  intro v hv hne key hkey
  obtain rfl | hv := List.mem_cons.1 hv
  · exact absurd rfl hne
  obtain rfl := List.mem_singleton.1 hv
  obtain rfl : "rules.field_imports_exist" = key := Option.some.inj (Eq.trans rfl hkey)
  have hpath : SettingPath.ofKey "rules.field_imports_exist" =
      [.key "rules", .key "field_imports_exist"] := rfl
  rw [hpath]
  exact fun h => absurd h.1 (by decide)

/-- A name that is written as a number is not always kept as it is, and of two variables for the same name
the last one counts. -/
theorem variables_can_change_names :
    (∃ c, Id.run (Config.load (Disk.ofOverrides []) ⟨numberedVariables, none⟩ none) = .ok c ∧
      ("ASSEMBLY__SCHEMA__MUTATION", "007") ∈ numberedVariables ∧ c.schema.mutation ≠ "007") ∧
    ∃ c, Id.run (Config.load (Disk.ofOverrides []) ⟨doubledVariables, none⟩ none) = .ok c ∧
      ("ASSEMBLY__SCHEMA__MUTATION", "root") ∈ doubledVariables ∧ c.schema.mutation ≠ "root" :=
  ⟨⟨_, load_numberedVariables, List.mem_cons_self, by decide⟩,
    ⟨_, load_doubledVariables, List.mem_cons_self, by decide⟩⟩

end SchemaRegistry
