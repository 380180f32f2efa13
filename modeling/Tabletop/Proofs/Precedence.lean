import Mathlib.Data.List.Basic
import Tabletop.Proofs.Complaints
import Tabletop.Proofs.EntryLookup
import Tabletop.Proofs.FileLines
import Tabletop.Settings

/-!
# Tabletop.Proofs.Precedence

Which of the values that the sources have for a setting counts, and that no
other is looked at.

A `Configuration` is what the sources say, with the file of variables given by
its lines.  `Configuration.winner` is the value that counts for a setting,
`Setting.Takes` and `Setting.fault?` say what becomes of it.

* All that is looked at are the winners, each by itself
  (`Configuration.resolve_eq_ofWinners`); so configurations that agree on them
  come to the same.
* Winners stay when what loses to them is replaced (`LosersReplaced`).
-/

namespace Tabletop

open Settings

/-! ## Settings one by one -/

/-- What can be set of a table. -/
inductive Setting where
  | name
  | version
  | description
  | fallback
  | seed

namespace Setting

/-- The settings in the order of the record. -/
def all : List Setting := [name, version, description, fallback, seed]

def fieldName : Setting → String
  | name => "name"
  | version => "version"
  | description => "description"
  | fallback => "default_notation"
  | seed => "seed"

/-- The value that counts where no source has one. -/
def default : Setting → Value
  | name => .text defaults.name
  | version => .text defaults.version
  | description => .text defaults.description
  | fallback => .text defaults.fallback
  | seed => .null

/-- A keyword is for the setting, in capital or small letters. -/
def IsKeyword (x : Setting) (keyword : String) : Prop := smallLetters keyword = x.fieldName

/-- A variable is for the setting, in capital or small letters. -/
def IsVariable (x : Setting) (variableName : String) : Prop :=
  smallLetters variableName = variablePrefix ++ x.fieldName

instance (x : Setting) : DecidablePred x.IsKeyword :=
  fun keyword => inferInstanceAs (Decidable (smallLetters keyword = x.fieldName))

instance (x : Setting) : DecidablePred x.IsVariable :=
  fun name => inferInstanceAs (Decidable (smallLetters name = variablePrefix ++ x.fieldName))

/-- The settings have for this one what a value converts to. -/
def Takes (x : Setting) (v : Value) (s : Settings) : Prop :=
  match x with
  | name => v.heldText? = some (some s.name)
  | version => v.heldText? = some (some s.version)
  | description => v.heldText? = some (some s.description)
  | fallback => v.heldText? = some (some s.fallback)
  | seed => v = .null ∧ s.seed = none ∨ ∃ n, Field.integer v = .ok n ∧ s.seed = some n

/-- What is wrong with a value for the setting. -/
def fault? (x : Setting) (v : Value) : Option Issue :=
  match x with
  | seed =>
    match v, Field.integer v with
    | .null, _ | _, .ok _ => none
    | _, .error e => some e
  | _ =>
    match v.heldText? with
    | some (some _) => none
    | some none => some .undecodableText
    | none => some .notText

/-- What a report says of a value for the setting. -/
def complaint? (x : Setting) (v : Value) : Option Complaint :=
  (x.fault? v).map (⟨.field x.fieldName, ·⟩)

theorem mem_all (x : Setting) : x ∈ all := by cases x <;> simp [all]

end Setting

/-! ## Checking winners -/

namespace Field

theorem text_eq_ok_iff {v : Value} {s : String} :
    text v = .ok s ↔ v.heldText? = some (some s) := by
  unfold text
  split <;> simp_all

theorem check_text_eq_valid_iff {place : Place} {v : Value} {s : String} :
    check place text v = .valid s ↔ v.heldText? = some (some s) :=
  check_eq_valid_iff.trans text_eq_ok_iff

theorem optional_integer_eq_ok_iff {v : Value} {n : Option Int} :
    optional integer v = .ok n ↔
      v = .null ∧ n = none ∨ ∃ m, integer v = .ok m ∧ n = some m := by
  by_cases hv : v = .null
  · subst hv
    simp [optional, integer, Value.heldText?, eq_comm]
  · rw [optional_of_ne_null integer hv]
    cases integer v <;> simp [Except.map, hv, eq_comm]

theorem objection?_text {x : Setting} (hx : x ≠ .seed) (v : Value) :
    objection? text v = x.fault? v := by
  have hfault : x.fault? v = match v.heldText? with
      | some (some _) => none
      | some none => some .undecodableText
      | none => some .notText := by
    cases x <;> first | contradiction | rfl
  rw [hfault, objection?, text]
  rcases v.heldText? with _ | _ | s <;> rfl

theorem objection?_seed (v : Value) :
    objection? (optional integer) v = Setting.seed.fault? v := by
  by_cases hv : v = .null
  · subst hv
    rfl
  · rw [objection?_optional integer hv, objection?]
    unfold Setting.fault?
    cases integer v <;> cases v <;> first | contradiction | rfl

/-- A field with a default is checked with the value that stands for the default. -/
theorem withDefault_eq_check {α : Type} {fs : Fields} {name : String} {default : α}
    {accept : Value → Except Issue α} {v : Value} (h : accept v = .ok default) :
    withDefault fs name default accept =
      check (.field name) accept ((fs.lookup name).getD v) := by
  unfold withDefault
  cases fs.lookup name with
  | none => exact (check_eq_valid_iff.mpr h).symm
  | some v => rfl

end Field

namespace Settings

variable {w : Setting → Value} {s : Settings}

/-- The settings that the winners make, each checked by itself. -/
def ofWinners (w : Setting → Value) : Checked Settings :=
  Settings.mk <$> Field.check (.field "name") Field.text (w .name)
    <*> Field.check (.field "version") Field.text (w .version)
    <*> Field.check (.field "description") Field.text (w .description)
    <*> Field.check (.field "default_notation") Field.text (w .fallback)
    <*> Field.check (.field "seed") (Field.optional Field.integer) (w .seed)

theorem ofFields_eq_ofWinners {fs : Fields}
    (h : ∀ x : Setting, (fs.lookup x.fieldName).getD x.default = w x) :
    ofFields fs = ofWinners w := by
  have hchecked : ∀ (x : Setting) {α : Type} {accept : Value → Except Issue α} {default : α},
      accept x.default = .ok default → Field.withDefault fs x.fieldName default accept =
        Field.check (.field x.fieldName) accept (w x) := fun x _ _ _ hdefault => by
    rw [Field.withDefault_eq_check hdefault, h x]
  have hname : Field.withDefault fs "name" defaults.name Field.text = _ :=
    hchecked .name rfl
  have hversion : Field.withDefault fs "version" defaults.version Field.text = _ :=
    hchecked .version rfl
  have hdescription : Field.withDefault fs "description" defaults.description Field.text = _ :=
    hchecked .description rfl
  have hfallback : Field.withDefault fs "default_notation" defaults.fallback Field.text = _ :=
    hchecked .fallback rfl
  have hseed : Field.withDefault fs "seed" defaults.seed (Field.optional Field.integer) = _ :=
    hchecked .seed rfl
  rw [ofFields, hname, hversion, hdescription, hfallback, hseed]
  rfl

theorem ofWinners_eq_valid_iff : ofWinners w = .valid s ↔ ∀ x : Setting, x.Takes (w x) s := by
  constructor
  · intro h
    obtain ⟨_, seed, hrest₃, hseed, rfl⟩ := Checked.seq_eq_valid_iff.mp h
    obtain ⟨_, fallback, hrest₂, hfallback, rfl⟩ := Checked.seq_eq_valid_iff.mp hrest₃
    obtain ⟨_, description, hrest, hdescription, rfl⟩ := Checked.seq_eq_valid_iff.mp hrest₂
    obtain ⟨_, version, hfirst, hversion, rfl⟩ := Checked.seq_eq_valid_iff.mp hrest
    obtain ⟨name, hname, rfl⟩ := Checked.map_eq_valid_iff.mp hfirst
    intro x
    cases x with
    | name => exact Field.check_text_eq_valid_iff.mp hname
    | version => exact Field.check_text_eq_valid_iff.mp hversion
    | description => exact Field.check_text_eq_valid_iff.mp hdescription
    | fallback => exact Field.check_text_eq_valid_iff.mp hfallback
    | seed => exact Field.optional_integer_eq_ok_iff.mp (Field.check_eq_valid_iff.mp hseed)
  · intro h
    have hseed := Field.optional_integer_eq_ok_iff.mpr (h .seed)
    simp only [ofWinners, Field.check_text_eq_valid_iff.mpr (h .name),
      Field.check_text_eq_valid_iff.mpr (h .version),
      Field.check_text_eq_valid_iff.mpr (h .description),
      Field.check_text_eq_valid_iff.mpr (h .fallback), Field.check_eq_valid_iff.mpr hseed]
    rfl

theorem complaints_ofWinners :
    (ofWinners w).complaints = Setting.all.filterMap fun x => x.complaint? (w x) := by
  have htext : ∀ x : Setting, x ≠ .seed →
      (Field.objection? Field.text (w x)).toList.map (⟨.field x.fieldName, ·⟩) =
        (x.complaint? (w x)).toList := fun x hx => by
    rw [Field.objection?_text hx, Setting.complaint?, Option.toList_map]
  have hseed : (Field.objection? (Field.optional Field.integer) (w .seed)).toList.map
      (⟨.field "seed", ·⟩) = (Setting.seed.complaint? (w .seed)).toList := by
    rw [Field.objection?_seed, Setting.complaint?, Option.toList_map]
    rfl
  rw [List.filterMap_eq_flatMap_toList]
  simp only [ofWinners, Checked.complaints_seq, Checked.complaints_map, Field.complaints_check]
  rw [hseed]
  simp [Setting.all, ← htext, Setting.fieldName]

/-! ## What sources have for a setting -/

theorem fieldOfVariable?_eq_some_iff {name field : String} :
    fieldOfVariable? name = some field ↔ smallLetters name = variablePrefix ++ field := by
  have hlength : variablePrefix.length = variablePrefix.toList.length := rfl
  rw [← String.toList_inj, String.toList_append, fieldOfVariable?, hlength]
  split
  · next hprefix =>
      obtain ⟨rest, hrest⟩ := List.isPrefixOf_iff_prefix.mp hprefix
      rw [← hrest, List.drop_left, Option.some_inj, List.append_cancel_left_eq,
        ← String.toList_inj, String.toList_ofList]
  · next hprefix =>
      refine ⟨nofun, fun h => absurd ?_ hprefix⟩
      exact List.isPrefixOf_iff_prefix.mpr ⟨_, h.symm⟩

theorem fieldOfVariable?_beq (x : Setting) (name : String) :
    (fieldOfVariable? name == some x.fieldName) = decide (x.IsVariable name) := by
  rw [Bool.eq_iff_iff, beq_iff_eq, decide_eq_true_iff]
  exact fieldOfVariable?_eq_some_iff

/-- The first keyword for a setting counts. -/
theorem lookup_smallLetters (given : Fields) (x : Setting) :
    (given.map fun e => (smallLetters e.1, e.2)).lookup x.fieldName =
      (given.find? fun e => x.IsKeyword e.1).map Prod.snd := by
  have hkeys :=
    Entries.lookup_filterMap_key (fun name => some (smallLetters name)) given x.fieldName
  simp only [Option.map_some, Option.some_beq_some] at hkeys
  rw [← List.filterMap_eq_map]
  exact hkeys

/-- The last variable for a setting counts. -/
theorem lookup_fieldsOfVariables (bindings : List Binding) (x : Setting) :
    (fieldsOfVariables bindings).lookup x.fieldName =
      ((bindings.filter fun b => x.IsVariable b.1).getLast?.bind Prod.snd).map .text := by
  have hvalues := Entries.lookup_filterMap_some (Entries.nodup_keys_ofList
    (bindings.filterMap fun b => (fieldOfVariable? b.1).map fun field => (field, b.2)))
    Value.text x.fieldName
  refine hvalues.trans ?_
  rw [Entries.lookup_ofList, ← List.filterMap_reverse, Entries.lookup_filterMap_key]
  simp only [fieldOfVariable?_beq]
  rw [List.getLast?_filter]
  cases bindings.reverse.find? fun b => x.IsVariable b.1 <;> rfl

theorem lookup_fieldsOfVariables_some (vs : Variables) (x : Setting) :
    (fieldsOfVariables (vs.map fun e => (e.1, some e.2))).lookup x.fieldName =
      ((vs.filter fun e => x.IsVariable e.1).getLast?.map Prod.snd).map .text := by
  rw [lookup_fieldsOfVariables, List.filter_map, List.getLast?_map]
  change (((vs.filter fun e => x.IsVariable e.1).getLast?.map _).bind _).map _ = _
  cases (vs.filter fun e => x.IsVariable e.1).getLast? <;> rfl

end Settings

/-! ## Configurations -/

/-- What the sources say, the file of variables line by line. -/
structure Configuration where
  given : Fields
  environment : Variables
  lines : List VariableFile.Line

namespace Configuration

/-- The variables that the lines of the file bind. -/
def bindings (c : Configuration) : List Binding := c.lines.filterMap VariableFile.Line.binding?

/-- The sources are those of the configuration: the file consists of its lines,
however they end. -/
structure Describes (c : Configuration) (sources : Sources) : Prop where
  given : sources.given = c.given
  environment : sources.environment = c.environment
  file : VariableFile.unifyLineEnds (VariableFile.dropMark sources.file.toList) =
    VariableFile.render c.lines
  wellFormed : ∀ l ∈ c.lines, l.WellFormed
  /-- In the file, the value of a setting refers to no variables. -/
  free : ∀ b ∈ c.bindings, ∀ x : Setting, x.IsVariable b.1 → ∀ v ∈ b.2, Reference.Free v.toList
  /-- In the file, the variable of a setting is not spelled in two ways. -/
  spelling : ∀ b ∈ c.bindings, ∀ b' ∈ c.bindings, ∀ x : Setting,
    x.IsVariable b.1 → x.IsVariable b'.1 → b.1 = b'.1

/-- The value that the first keyword for the setting gives. -/
def fromKeyword? (c : Configuration) (x : Setting) : Option Value :=
  (c.given.find? fun e => x.IsKeyword e.1).map Prod.snd

/-- The value that the last variable for the setting gives. -/
def fromEnvironment? (c : Configuration) (x : Setting) : Option String :=
  (c.environment.filter fun e => x.IsVariable e.1).getLast?.map Prod.snd

/-- The value that the last line for the setting gives. -/
def fromFile? (c : Configuration) (x : Setting) : Option String :=
  (c.bindings.filter fun b => x.IsVariable b.1).getLast?.bind Prod.snd

/-- The value that counts. -/
def winner (c : Configuration) (x : Setting) : Value :=
  (((c.fromKeyword? x).or ((c.fromEnvironment? x).map .text)).or
    ((c.fromFile? x).map .text)).getD x.default

variable {c c' : Configuration} {sources : Sources}

/-- Of the variables in the file for a setting, the last line is left. -/
theorem filter_read (h : c.Describes sources) (x : Setting) :
    (VariableFile.read sources.environment sources.file).filter (fun b => x.IsVariable b.1) =
      (c.bindings.filter fun b => x.IsVariable b.1).getLast?.toList := by
  obtain ⟨settled, hsettle, hfilter⟩ :=
    Reference.exists_settle_eq_ofList sources.environment c.bindings
  have hread : VariableFile.read sources.environment sources.file =
      Entries.ofList (· == ·) settled := by
    rw [VariableFile.read, h.file, VariableFile.readBindings_render h.wellFormed]
    exact hsettle
  have hkept := hfilter (fun name => x.IsVariable name) fun b hb hx =>
    h.free b hb x (of_decide_eq_true hx)
  have hsingle : ∀ b ∈ c.bindings.filter (fun b => x.IsVariable b.1),
      ∀ b' ∈ c.bindings.filter (fun b => x.IsVariable b.1), b.1 = b'.1 := by
    intro b hb b' hb'
    obtain ⟨hb, hx⟩ := List.mem_filter.mp hb
    obtain ⟨hb', hx'⟩ := List.mem_filter.mp hb'
    exact h.spelling b hb b' hb' x (of_decide_eq_true hx) (of_decide_eq_true hx')
  rw [hread, Entries.filter_ofList (fun name => x.IsVariable name), hkept]
  exact Entries.ofList_of_single_key hsingle

/-- The winner comes first among all values for a setting. -/
theorem lookup_candidates (h : c.Describes sources) (x : Setting) :
    ((candidates sources).lookup x.fieldName).getD x.default = c.winner x := by
  have hfile : (fieldsOfVariables (VariableFile.read sources.environment sources.file)).lookup
      x.fieldName = (c.fromFile? x).map .text := by
    rw [lookup_fieldsOfVariables, filter_read h x, fromFile?]
    cases (c.bindings.filter fun b => x.IsVariable b.1).getLast? <;> rfl
  rw [candidates, List.lookup_append, List.lookup_append, hfile, h.given, h.environment]
  rw [lookup_smallLetters, lookup_fieldsOfVariables_some]
  rfl

/-- All that is looked at are the winners. -/
theorem resolve_eq_ofWinners (h : c.Describes sources) : resolve sources = ofWinners c.winner :=
  ofFields_eq_ofWinners (lookup_candidates h)

/-! ## What loses -/

/-- Each keyword is for no setting, or comes after another one for the setting. -/
def KeywordsLose (before part : Fields) : Prop :=
  ∀ e ∈ part, ∀ x : Setting, x.IsKeyword e.1 → ∃ e' ∈ before, x.IsKeyword e'.1

/-- Each variable is for no setting, or stands beside a keyword or before another
variable for the setting. -/
def VariablesLose (given : Fields) (part after : Variables) : Prop :=
  ∀ e ∈ part, ∀ x : Setting, x.IsVariable e.1 →
    (∃ e' ∈ given, x.IsKeyword e'.1) ∨ ∃ e' ∈ after, x.IsVariable e'.1

/-- Each line is for no setting, or stands beside a keyword or a variable of the
environment or before another line for the setting. -/
def LinesLose (given : Fields) (environment : Variables)
    (part after : List VariableFile.Line) : Prop :=
  ∀ l ∈ part, ∀ b ∈ l.binding?, ∀ x : Setting, x.IsVariable b.1 →
    (∃ e ∈ given, x.IsKeyword e.1) ∨ (∃ e ∈ environment, x.IsVariable e.1) ∨
      ∃ l' ∈ after, ∃ b' ∈ l'.binding?, x.IsVariable b'.1

/-- A part that loses takes the place of another such part, in one of the sources. -/
inductive LosersReplaced : Configuration → Configuration → Prop where
  | given {before old new after : Fields} {environment : Variables}
      {lines : List VariableFile.Line}
      (hold : KeywordsLose before old) (hnew : KeywordsLose before new) :
      LosersReplaced ⟨before ++ old ++ after, environment, lines⟩
        ⟨before ++ new ++ after, environment, lines⟩
  | environment {given : Fields} {before old new after : Variables}
      {lines : List VariableFile.Line}
      (hold : VariablesLose given old after) (hnew : VariablesLose given new after) :
      LosersReplaced ⟨given, before ++ old ++ after, lines⟩
        ⟨given, before ++ new ++ after, lines⟩
  | lines {given : Fields} {environment : Variables}
      {before old new after : List VariableFile.Line}
      (hold : LinesLose given environment old after)
      (hnew : LinesLose given environment new after) :
      LosersReplaced ⟨given, environment, before ++ old ++ after⟩
        ⟨given, environment, before ++ new ++ after⟩

theorem fromKeyword?_eq_none_iff {x : Setting} :
    c.fromKeyword? x = none ↔ ¬∃ e ∈ c.given, x.IsKeyword e.1 := by
  simp [fromKeyword?]

theorem fromEnvironment?_eq_none_iff {x : Setting} :
    c.fromEnvironment? x = none ↔ ¬∃ e ∈ c.environment, x.IsVariable e.1 := by
  simp [fromEnvironment?]

/-- The environment matters only without a keyword, the file only without either. -/
theorem winner_congr {x : Setting} (hkeyword : c.fromKeyword? x = c'.fromKeyword? x)
    (henvironment : c'.fromKeyword? x = none → c.fromEnvironment? x = c'.fromEnvironment? x)
    (hfile : c'.fromKeyword? x = none → c'.fromEnvironment? x = none →
      c.fromFile? x = c'.fromFile? x) : c.winner x = c'.winner x := by
  rw [winner, winner, hkeyword]
  cases hk : c'.fromKeyword? x with
  | some v => rfl
  | none =>
      rw [henvironment hk]
      cases he : c'.fromEnvironment? x with
      | some s => rfl
      | none => rw [hfile hk he]

section Lists

variable {α : Type} {p : α → Bool} {before part after : List α}

/-- What comes after an element that is looked for is not found. -/
theorem find?_append_of_found (h : ∀ a ∈ part, p a = true → ∃ b ∈ before, p b = true) :
    (before ++ part ++ after).find? p = (before ++ after).find? p := by
  rw [List.append_assoc, List.find?_append, List.find?_append, List.find?_append]
  cases hbefore : before.find? p with
  | some a => rfl
  | none =>
      have hpart : part.find? p = none := by
        rw [List.find?_eq_none] at hbefore ⊢
        intro a ha hp
        obtain ⟨b, hb, hpb⟩ := h a ha hp
        exact hbefore b hb hpb
      rw [hpart]
      rfl

theorem getLast?_filter_append_of_found (h : ∀ a ∈ part, p a = true → ∃ b ∈ after, p b = true) :
    ((before ++ part ++ after).filter p).getLast? = ((before ++ after).filter p).getLast? := by
  have hreverse : ∀ a ∈ part.reverse, p a = true → ∃ b ∈ after.reverse, p b = true := by
    simpa only [List.mem_reverse] using h
  have hfound : (after.reverse ++ part.reverse ++ before.reverse).find? p =
      (after.reverse ++ before.reverse).find? p := find?_append_of_found hreverse
  simpa only [List.getLast?_filter, List.reverse_append, List.append_assoc] using hfound

end Lists

section Parts

variable {given : Fields} {environment : Variables} {lines : List VariableFile.Line}

theorem winner_without_keywords {before part after : Fields} (h : KeywordsLose before part) :
    (mk (before ++ part ++ after) environment lines).winner =
      (mk (before ++ after) environment lines).winner := by
  funext x
  refine winner_congr (congrArg (Option.map _) (find?_append_of_found ?_)) (fun _ => rfl)
    fun _ _ => rfl
  simpa using fun e he hx => h e he x hx

theorem winner_without_variables {before part after : Variables}
    (h : VariablesLose given part after) :
    (mk given (before ++ part ++ after) lines).winner =
      (mk given (before ++ after) lines).winner := by
  funext x
  refine winner_congr rfl (fun hkeyword => ?_) fun _ _ => rfl
  have hnone := fromKeyword?_eq_none_iff.mp hkeyword
  have hpart : ∀ e ∈ part, decide (x.IsVariable e.1) = true →
      ∃ e' ∈ after, decide (x.IsVariable e'.1) = true := fun e he hx => by
    simpa using (h e he x (of_decide_eq_true hx)).resolve_left hnone
  exact congrArg (Option.map _) (getLast?_filter_append_of_found hpart)

theorem winner_without_lines {before part after : List VariableFile.Line}
    (h : LinesLose given environment part after) :
    (mk given environment (before ++ part ++ after)).winner =
      (mk given environment (before ++ after)).winner := by
  funext x
  refine winner_congr rfl (fun _ => rfl) fun hkeyword henvironment => ?_
  have hnone := fromKeyword?_eq_none_iff.mp hkeyword
  have hnone' := fromEnvironment?_eq_none_iff.mp henvironment
  have hpart : ∀ b ∈ part.filterMap VariableFile.Line.binding?, decide (x.IsVariable b.1) = true →
      ∃ b' ∈ after.filterMap VariableFile.Line.binding?,
        decide (x.IsVariable b'.1) = true := fun b hb hx => by
    obtain ⟨l, hl, hbinding⟩ := List.mem_filterMap.mp hb
    obtain ⟨l', hl', b', hb', hx'⟩ :=
      ((h l hl b hbinding x (of_decide_eq_true hx)).resolve_left hnone).resolve_left hnone'
    exact ⟨b', List.mem_filterMap.mpr ⟨l', hl', hb'⟩, decide_eq_true hx'⟩
  rw [fromFile?, fromFile?, bindings, bindings, List.filterMap_append, List.filterMap_append,
    List.filterMap_append, getLast?_filter_append_of_found hpart]

end Parts

/-- Winners stay where losers are replaced. -/
theorem winner_eq_of_losersReplaced (h : LosersReplaced c c') : c.winner = c'.winner := by
  cases h with
  | given hold hnew =>
      exact (winner_without_keywords hold).trans (winner_without_keywords hnew).symm
  | environment hold hnew =>
      exact (winner_without_variables hold).trans (winner_without_variables hnew).symm
  | lines hold hnew =>
      exact (winner_without_lines hold).trans (winner_without_lines hnew).symm

/-! ## Resolving -/

theorem exists_resolve_eq_valid_iff (h : c.Describes sources) :
    (∃ s, resolve sources = .valid s) ↔ ∀ x : Setting, x.fault? (c.winner x) = none := by
  rw [Checked.exists_eq_valid_iff, resolve_eq_ofWinners h, complaints_ofWinners,
    List.filterMap_eq_nil_iff]
  simp only [Setting.complaint?, Option.map_eq_none_iff, Setting.mem_all, forall_const]

/-- Names of settings are on one line, so a report has a line for each complaint. -/
theorem splitOn_report_resolve (h : c.Describes sources)
    (hinvalid : ¬∃ s, resolve sources = .valid s) :
    (Complaint.report (resolve sources).complaints).toList.splitOn '\n' =
      (Setting.all.filterMap fun x => x.complaint? (c.winner x)).map (·.line.toList) := by
  have hcomplaints : (resolve sources).complaints =
      Setting.all.filterMap fun x => x.complaint? (c.winner x) := by
    rw [resolve_eq_ofWinners h, complaints_ofWinners]
  rw [Checked.exists_eq_valid_iff, hcomplaints] at hinvalid
  rw [hcomplaints]
  refine Complaint.splitOn_report hinvalid fun complaint hmem => ?_
  obtain ⟨x, -, hx⟩ := List.mem_filterMap.mp hmem
  obtain ⟨e, -, rfl⟩ := Option.map_eq_some_iff.mp hx
  cases x <;> exact newline_not_mem_literal (by decide)

end Configuration

end Tabletop
