import StoryKnobs.Proofs.Paths
import StoryKnobs.Story

/-!
# The lines of a story

The text of a story is a list of lines: the import of the knobs if there are inputs, a fixed number
of lines with the names of the component and its module, and one line for each input. If no name has
a line break or a quote in it, the lines can be told apart, and what is in a line can be read back
from it. So the text tells what went into the story.
-/

namespace StoryKnobs

namespace Text

/-- The first place where a character stands divides a text in one way only. -/
theorem append_cons_inj {cut : Char} {before other after rest : List Char} (hbefore : cut ∉ before)
    (hother : cut ∉ other) (heq : before ++ cut :: after = other ++ cut :: rest) :
    before = other ∧ after = rest := by
  have hfirst {start : List Char} (hstart : cut ∉ start) (chars : List Char) :
      (splitFirst (· == cut) (start ++ cut :: chars)).1 = start := by
    have huncut : ∀ char ∈ start, (char == cut) = false := by
      intro char hchar
      exact beq_eq_false_iff_ne.mpr fun hcut => hstart (hcut ▸ hchar)
    rw [@splitFirst_append_cons (· == cut) start chars cut (beq_self_eq_true cut),
      splitFirst_of_uncut huncut]
  have hstart : before = other := by
    rw [← hfirst hbefore after, heq, hfirst hother]
  subst hstart
  exact ⟨rfl, (List.cons.inj (List.append_cancel_left heq)).2⟩

theorem append_quote_inj {before other after rest : String} (hbefore : '\'' ∉ before.toList)
    (hother : '\'' ∉ other.toList) (heq : before ++ "'" ++ after = other ++ "'" ++ rest) :
    before = other ∧ after = rest := by
  have hlist (start chars : String) :
      (start ++ "'" ++ chars).toList = start.toList ++ '\'' :: chars.toList := by
    rw [String.toList_append, String.toList_append, List.append_assoc]
    rfl
  have hchars := congrArg String.toList heq
  rw [hlist, hlist] at hchars
  exact (append_cons_inj hbefore hother hchars).imp String.toList_inj.mp String.toList_inj.mp

theorem notMem_intercalate {char : Char} {separator : String} {texts : List String}
    (hseparator : char ∉ separator.toList) (htexts : ∀ text ∈ texts, char ∉ text.toList) :
    char ∉ (separator.intercalate texts).toList := by
  rw [String.toList_intercalate]
  induction texts with
  | nil => simp
  | cons text texts ih =>
      obtain ⟨htext, htexts⟩ := List.forall_mem_cons.mp htexts
      cases texts with
      | nil => simpa using htext
      | cons other texts =>
          rw [List.map_cons, List.map_cons, List.intercalate_cons_cons, ← List.map_cons]
          simp only [List.mem_append, not_or]
          exact ⟨⟨htext, hseparator⟩, ih htexts⟩

def ofLines (lines : List String) : String := String.join (lines.map (· ++ "\n"))

theorem ofLines_nil : ofLines [] = "" := rfl

theorem ofLines_cons (line : String) (lines : List String) :
    ofLines (line :: lines) = line ++ "\n" ++ ofLines lines := String.join_cons

theorem ofLines_append (lines others : List String) :
    ofLines (lines ++ others) = ofLines lines ++ ofLines others := by
  rw [ofLines, List.map_append, String.join_append]
  rfl

theorem toList_ofLines_cons (line : String) (lines : List String) :
    (ofLines (line :: lines)).toList = line.toList ++ '\n' :: (ofLines lines).toList := by
  rw [ofLines_cons, String.toList_append, String.toList_append, List.append_assoc]
  rfl

/-- Lines without breaks inside can be told apart. -/
theorem ofLines_injective {lines others : List String}
    (hlines : ∀ line ∈ lines, '\n' ∉ line.toList) (hothers : ∀ line ∈ others, '\n' ∉ line.toList)
    (heq : ofLines lines = ofLines others) : lines = others := by
  have hne (line : String) (rest : List String) : ofLines [] ≠ ofLines (line :: rest) := by
    intro hnil
    have hlist := congrArg String.toList hnil
    rw [toList_ofLines_cons] at hlist
    exact List.append_ne_nil_of_right_ne_nil _ (List.cons_ne_nil _ _) hlist.symm
  induction lines generalizing others with
  | nil =>
      cases others with
      | nil => rfl
      | cons other others => exact absurd heq (hne other others)
  | cons line lines ih =>
      cases others with
      | nil => exact absurd heq.symm (hne line lines)
      | cons other others =>
          obtain ⟨hline, hlines⟩ := List.forall_mem_cons.mp hlines
          obtain ⟨hother, hothers⟩ := List.forall_mem_cons.mp hothers
          have hlist := congrArg String.toList heq
          rw [toList_ofLines_cons, toList_ofLines_cons] at hlist
          obtain ⟨hfirst, hrest⟩ := append_cons_inj hline hother hlist
          rw [String.toList_inj.mp hfirst, ih hlines hothers (String.toList_inj.mp hrest)]

end Text

theorem Knob.ofName?_name (knob : Knob) : ofName? knob.name = some knob := by
  cases knob <;> decide

theorem Knob.name_injective : Function.Injective name := by
  intro knob other heq
  have hsome := ofName?_name knob
  rw [heq, ofName?_name other] at hsome
  exact (Option.some.inj hsome).symm

namespace Story

/-! ### Lines -/

/-- The import of the knobs in use, on a line of its own; no line if there are none. -/
def knobImportLines (props : List Input) : List String :=
  match knobsOf props with
  | [] => []
  | knobs =>
    ["import \x7b " ++ ", ".intercalate (knobs.map Knob.name) ++ " \x7d from '" ++ knobsPackage ++ "';"]

def importLine (name file : String) : String :=
  "import \x7b " ++ name ++ " \x7d from '" ++ file ++ "';"

def entry (prop : Input) : String :=
  "    " ++ prop.name ++ ": " ++ prop.knob.name ++ "('" ++ prop.name ++ "', " ++
    options prop.knob ++ defaultText prop ++ "),"

def headLines (story : Story) : List String :=
  [importLine story.moduleName story.modulePath,
    importLine story.componentName ("./" ++ story.componentFileName), "",
    "export default \x7b", "  title: '" ++ story.componentName ++ "',", "\x7d;", "",
    "export const primary = () => (\x7b", "  moduleMetadata: \x7b",
    "    imports: [" ++ story.moduleName ++ "],", "  \x7d,",
    "  component: " ++ story.componentName ++ ",", "  props: \x7b"]

def tailLines : List String := ["  \x7d,", "\x7d);"]

def lines (story : Story) : List String :=
  knobImportLines story.props ++ (story.headLines ++ (story.props.map entry ++ tailLines))

theorem entry_def (prop : Input) : entry prop = "    " ++ prop.name ++ ": " ++ prop.knob.name ++
    "('" ++ prop.name ++ "', " ++ options prop.knob ++ defaultText prop ++ ")," := rfl

theorem propLine_eq (prop : Input) : propLine prop = entry prop ++ "\n" := by
  calc
    propLine prop = "    " ++ prop.name ++ ": " ++ prop.knob.name ++ "('" ++ prop.name ++ "', " ++
        options prop.knob ++ defaultText prop ++ (")," ++ "\n") := rfl
    _ = entry prop ++ "\n" := String.append_assoc.symm

theorem propLines_eq (props : List Input) :
    propLines props = Text.ofLines (props.map entry) := by
  rw [propLines, Text.ofLines, List.map_map]
  exact congrArg String.join (List.map_congr_left fun prop _ => propLine_eq prop)

theorem knobImport_eq (props : List Input) :
    knobImport props = Text.ofLines (knobImportLines props) := by
  rw [knobImport, knobImportLines]
  cases knobsOf props with
  | nil => rfl
  | cons knob knobs =>
      calc
        _ = "import \x7b " ++ ", ".intercalate ((knob :: knobs).map Knob.name) ++ " \x7d from '" ++
            knobsPackage ++ ("';" ++ "\n") := rfl
        _ = _ := by
          simp only [Text.ofLines_cons, Text.ofLines_nil, String.append_assoc, String.append_empty]

/-- The text of a story consists of its lines. -/
theorem text_eq (story : Story) : story.text = Text.ofLines story.lines := by
  calc
    story.text = knobImport story.props ++
        "import \x7b " ++ story.moduleName ++ " \x7d from '" ++ story.modulePath ++
        ("';" ++ "\n") ++
        "import \x7b " ++ story.componentName ++ (" \x7d from '" ++ "./") ++
        story.componentFileName ++ ("';" ++ "\n") ++
        ("" ++ "\n" ++ ("export default \x7b" ++ "\n" ++ "  title: '")) ++ story.componentName ++
        ("'," ++ "\n" ++ ("\x7d;" ++ "\n")) ++
        ("" ++ "\n" ++ ("export const primary = () => (\x7b" ++ "\n" ++
          ("  moduleMetadata: \x7b" ++ "\n" ++ "    imports: ["))) ++ story.moduleName ++
        ("]," ++ "\n" ++ ("  \x7d," ++ "\n" ++ "  component: ")) ++ story.componentName ++
        ("," ++ "\n" ++ ("  props: \x7b" ++ "\n")) ++ propLines story.props ++
        ("  \x7d," ++ "\n" ++ ("\x7d);" ++ "\n")) := rfl
    _ = Text.ofLines story.lines := by
      simp only [lines, headLines, tailLines, importLine, knobImport_eq, propLines_eq,
        Text.ofLines_append, Text.ofLines_cons, Text.ofLines_nil, String.append_assoc,
        String.append_empty]

/-! ### Reading a story -/

structure Unbroken (text : String) : Prop where
  lineBreak : '\n' ∉ text.toList
  quote : '\'' ∉ text.toList

/-- No name in a story has a line break or a quote in it, and no first value has a line break. -/
structure Readable (story : Story) : Prop where
  componentFileName : Unbroken story.componentFileName
  componentName : Unbroken story.componentName
  modulePath : Unbroken story.modulePath
  moduleName : Unbroken story.moduleName
  propName : ∀ prop ∈ story.props, Unbroken prop.name
  defaultValue : ∀ prop ∈ story.props, ∀ value ∈ prop.defaultValue, '\n' ∉ value.toList

instance (text : String) : Decidable (Unbroken text) :=
  decidable_of_iff ('\n' ∉ text.toList ∧ '\'' ∉ text.toList)
    ⟨fun ⟨hlineBreak, hquote⟩ => ⟨hlineBreak, hquote⟩,
    fun ⟨hlineBreak, hquote⟩ => ⟨hlineBreak, hquote⟩⟩

/-- Inputs with the same name, the same knob and the same first value, where a missing value is the
same as the one that stands for it. -/
structure SameEntry (prop other : Input) : Prop where
  name : prop.name = other.name
  knob : prop.knob = other.knob
  defaultValue : defaultText prop = defaultText other

structure SameParts (story other : Story) : Prop where
  componentFileName : story.componentFileName = other.componentFileName
  componentName : story.componentName = other.componentName
  modulePath : story.modulePath = other.modulePath
  moduleName : story.moduleName = other.moduleName
  props : List.Forall₂ SameEntry story.props other.props

theorem lineBreak_notMem_importLine {name file : String} (hname : '\n' ∉ name.toList)
    (hfile : '\n' ∉ file.toList) : '\n' ∉ (importLine name file).toList := by
  simp [importLine, hname, hfile]

theorem lineBreak_notMem_knobImportLines (props : List Input) :
    ∀ line ∈ knobImportLines props, '\n' ∉ line.toList := by
  have hnames (knobs : List Knob) : '\n' ∉ (", ".intercalate (knobs.map Knob.name)).toList := by
    refine Text.notMem_intercalate (by decide) fun name hname => ?_
    obtain ⟨knob, -, rfl⟩ := List.mem_map.mp hname
    cases knob <;> decide
  rw [knobImportLines]
  split
  · exact fun _ hline => nomatch hline
  · intro line hline
    obtain rfl := List.mem_singleton.mp hline
    exact lineBreak_notMem_importLine (hnames _) (by decide)

theorem lineBreak_notMem_headLines {story : Story} (hreadable : story.Readable) :
    ∀ line ∈ story.headLines, '\n' ∉ line.toList := by
  have himport := lineBreak_notMem_importLine hreadable.moduleName.lineBreak
    hreadable.modulePath.lineBreak
  have hfile : '\n' ∉ ("./" ++ story.componentFileName).toList := by
    simp [hreadable.componentFileName.lineBreak]
  have himport' := lineBreak_notMem_importLine hreadable.componentName.lineBreak hfile
  simp [headLines, hreadable.moduleName.lineBreak, hreadable.componentName.lineBreak, himport,
    himport']

theorem lineBreak_notMem_entry {prop : Input} (hname : '\n' ∉ prop.name.toList)
    (hvalue : ∀ value ∈ prop.defaultValue, '\n' ∉ value.toList) :
    '\n' ∉ (entry prop).toList := by
  have hknob : '\n' ∉ prop.knob.name.toList := by
    cases prop.knob <;> decide
  have hoptions : '\n' ∉ (options prop.knob).toList := by
    cases prop.knob <;> decide
  have hdefault : '\n' ∉ (defaultText prop).toList := by
    rw [defaultText]
    cases hsome : prop.defaultValue with
    | none => decide
    | some value => exact hvalue value hsome
  simp [entry_def, hname, hknob, hoptions, hdefault]

theorem lineBreak_notMem_lines {story : Story} (hreadable : story.Readable) :
    ∀ line ∈ story.lines, '\n' ∉ line.toList := by
  intro line hline
  simp only [lines, List.mem_append, List.mem_map] at hline
  rcases hline with hline | hline | ⟨prop, hprop, rfl⟩ | hline
  · exact lineBreak_notMem_knobImportLines story.props line hline
  · exact lineBreak_notMem_headLines hreadable line hline
  · exact lineBreak_notMem_entry (hreadable.propName prop hprop).lineBreak
      (hreadable.defaultValue prop hprop)
  · revert line
    decide

theorem importLine_inj {name name' file file' : String} (hname : '\'' ∉ name.toList)
    (hname' : '\'' ∉ name'.toList) (heq : importLine name file = importLine name' file') :
    name = name' ∧ file = file' := by
  have hsplit (name file : String) : importLine name file =
      "import \x7b " ++ name ++ " \x7d from " ++ "'" ++ (file ++ "';") := by
    calc
      importLine name file =
          "import \x7b " ++ name ++ (" \x7d from " ++ "'") ++ file ++ "';" := rfl
      _ = "import \x7b " ++ name ++ " \x7d from " ++ "'" ++ (file ++ "';") := by
        simp only [String.append_assoc]
  have hstart {name : String} (hname : '\'' ∉ name.toList) :
      '\'' ∉ ("import \x7b " ++ name ++ " \x7d from ").toList := by
    simp [hname]
  rw [hsplit, hsplit] at heq
  obtain ⟨hbefore, hafter⟩ := Text.append_quote_inj (hstart hname) (hstart hname') heq
  rw [String.append_left_inj, String.append_right_inj] at hbefore
  rw [String.append_left_inj] at hafter
  exact ⟨hbefore, hafter⟩

theorem entry_inj {prop other : Input} (hprop : '\'' ∉ prop.name.toList)
    (hother : '\'' ∉ other.name.toList) (heq : entry prop = entry other) :
    SameEntry prop other := by
  have hsplit (prop : Input) : entry prop =
      "    " ++ prop.name ++ ": " ++ prop.knob.name ++ "(" ++ "'" ++ (prop.name ++ "'" ++
        (", " ++ options prop.knob ++ defaultText prop ++ "),")) := by
    calc
      entry prop = "    " ++ prop.name ++ ": " ++ prop.knob.name ++ ("(" ++ "'") ++ prop.name ++
          ("'" ++ ", ") ++ options prop.knob ++ defaultText prop ++ ")," := rfl
      _ = _ := by simp only [String.append_assoc]
  have hstart {prop : Input} (hname : '\'' ∉ prop.name.toList) :
      '\'' ∉ ("    " ++ prop.name ++ ": " ++ prop.knob.name ++ "(").toList := by
    have hknob : '\'' ∉ prop.knob.name.toList := by
      cases prop.knob <;> decide
    simp [hname, hknob]
  rw [hsplit, hsplit] at heq
  obtain ⟨hbefore, hafter⟩ := Text.append_quote_inj (hstart hprop) (hstart hother) heq
  obtain ⟨hname, hvalue⟩ := Text.append_quote_inj hprop hother hafter
  rw [hname, String.append_left_inj, String.append_right_inj] at hbefore
  have hknob : prop.knob = other.knob := Knob.name_injective hbefore
  rw [hknob, String.append_left_inj, String.append_right_inj] at hvalue
  exact ⟨hname, hknob, hvalue⟩

/-! ### Main result -/

theorem knob_mem_knobsOf {props : List Input} {prop : Input} (hprop : prop ∈ props) :
    prop.knob ∈ knobsOf props := by
  have horder : prop.knob ∈ importOrder := by
    cases prop.knob <;> decide
  refine List.mem_filter.mpr ⟨horder, List.any_eq_true.mpr ⟨prop, hprop, ?_⟩⟩
  exact beq_self_eq_true prop.knob

theorem knobsOf_eq_nil_iff {props : List Input} : knobsOf props = [] ↔ props = [] := by
  constructor
  · intro hnil
    refine List.eq_nil_iff_forall_not_mem.mpr fun prop hprop => ?_
    have hmem := knob_mem_knobsOf hprop
    rw [hnil] at hmem
    cases hmem
  · rintro rfl
    rfl

theorem length_knobImportLines (props : List Input) :
    (knobImportLines props).length = min 1 props.length := by
  rw [knobImportLines]
  split
  · rename_i hnil
    rw [knobsOf_eq_nil_iff.mp hnil]
    rfl
  · rename_i hne
    have hpos := List.length_pos_iff.mpr fun hnil => hne (knobsOf_eq_nil_iff.mpr hnil)
    exact (Nat.min_eq_left hpos).symm

/-- There are as many inputs as the number of lines tells. -/
theorem length_props_eq {story other : Story} (hlines : story.lines = other.lines) :
    story.props.length = other.props.length := by
  have hlength := congrArg List.length hlines
  have hhead : story.headLines.length = other.headLines.length := rfl
  simp only [lines, List.length_append, length_knobImportLines, List.length_map, hhead] at hlength
  omega

theorem sameEntries_of_map_entry_eq {props others : List Input}
    (hprops : ∀ prop ∈ props, Unbroken prop.name) (hothers : ∀ other ∈ others, Unbroken other.name)
    (heq : props.map entry = others.map entry) : List.Forall₂ SameEntry props others := by
  induction props generalizing others with
  | nil =>
      rw [List.map_nil, List.nil_eq, List.map_eq_nil_iff] at heq
      rw [heq]
      exact .nil
  | cons prop props ih =>
      cases others with
      | nil => cases heq
      | cons other others =>
          obtain ⟨hprop, hprops⟩ := List.forall_mem_cons.mp hprops
          obtain ⟨hother, hothers⟩ := List.forall_mem_cons.mp hothers
          rw [List.map_cons, List.map_cons, List.cons.injEq] at heq
          exact .cons (entry_inj hprop.quote hother.quote heq.1) (ih hprops hothers heq.2)

theorem sameParts_of_lines_eq {story other : Story} (hstory : story.Readable)
    (hother : other.Readable) (hlines : story.lines = other.lines) : SameParts story other := by
  have hlength := length_props_eq hlines
  have hknobs : (knobImportLines story.props).length = (knobImportLines other.props).length := by
    rw [length_knobImportLines, length_knobImportLines, hlength]
  obtain ⟨-, hrest⟩ := List.append_inj hlines hknobs
  obtain ⟨hhead, hrest⟩ := List.append_inj hrest rfl
  have hentries := List.append_cancel_right hrest
  rw [headLines, headLines, List.cons.injEq, List.cons.injEq] at hhead
  obtain ⟨hmodule, hcomponent, -⟩ := hhead
  have ⟨hmoduleName, hmodulePath⟩ :=
    importLine_inj hstory.moduleName.quote hother.moduleName.quote hmodule
  have ⟨hcomponentName, hfile⟩ :=
    importLine_inj hstory.componentName.quote hother.componentName.quote hcomponent
  rw [String.append_right_inj] at hfile
  exact ⟨hfile, hcomponentName, hmodulePath, hmoduleName,
    sameEntries_of_map_entry_eq hstory.propName hother.propName hentries⟩

theorem map_eq_map_of_sameEntries {α : Type} {value : Input → α} {props others : List Input}
    (hvalue : ∀ prop other, SameEntry prop other → value prop = value other)
    (hsame : List.Forall₂ SameEntry props others) : props.map value = others.map value := by
  induction hsame with
  | nil => rfl
  | cons hentry _ ih => rw [List.map_cons, List.map_cons, hvalue _ _ hentry, ih]

theorem knobImportLines_congr {props others : List Input}
    (hknobs : props.map Input.knob = others.map Input.knob) :
    knobImportLines props = knobImportLines others := by
  have hany (props : List Input) (knob : Knob) :
      props.any (·.knob == knob) = (props.map Input.knob).any (· == knob) := by
    rw [List.any_map]
    rfl
  have hknobsOf : knobsOf props = knobsOf others := by
    rw [knobsOf, knobsOf]
    exact List.filter_congr fun knob _ => by rw [hany, hany, hknobs]
  rw [knobImportLines, hknobsOf, knobImportLines]

theorem SameParts.lines_eq {story other : Story} (hparts : SameParts story other) :
    story.lines = other.lines := by
  have hentries : story.props.map entry = other.props.map entry :=
    map_eq_map_of_sameEntries (fun _ _ hsame => by
      rw [entry_def, entry_def, hsame.name, hsame.knob, hsame.defaultValue]) hparts.props
  have hknobs : story.props.map Input.knob = other.props.map Input.knob :=
    map_eq_map_of_sameEntries (fun _ _ hsame => hsame.knob) hparts.props
  have hhead : story.headLines = other.headLines := by
    rw [headLines, headLines, hparts.componentFileName, hparts.componentName, hparts.modulePath,
      hparts.moduleName]
  rw [lines, lines, knobImportLines_congr hknobs, hhead, hentries]

/-- **The text of a story tells what went into it.** If no name in two stories has a line break or
a quote in it, and no first value a line break, then the stories have the same text just if they
have the same names and the same inputs in the same order, where a missing first value is the same
as `undefined`. -/
theorem text_eq_iff {story other : Story} (hstory : story.Readable) (hother : other.Readable) :
    story.text = other.text ↔ SameParts story other := by
  constructor
  · intro htext
    rw [text_eq, text_eq] at htext
    exact sameParts_of_lines_eq hstory hother (Text.ofLines_injective
      (lineBreak_notMem_lines hstory) (lineBreak_notMem_lines hother) htext)
  · intro hparts
    rw [text_eq, text_eq, hparts.lines_eq]

theorem text_eq_iff_badge :
    let story : Story := ⟨"badge", "Badge", "../ui.module", "UiModule",
      [⟨"size", .number, some "[], 2"⟩, ⟨"my-icon: text(", .select, none⟩]⟩
    let other : Story := { story with props :=
      [⟨"size", .number, some "[], 2"⟩, ⟨"my-icon: text(", .select, some "undefined"⟩] }
    story.Readable ∧ other.Readable ∧ story.text = other.text ∧ SameParts story other := by
  intro story other
  have hstory : story.Readable :=
    ⟨by decide, by decide, by decide, by decide, by decide, by decide⟩
  have hother : other.Readable :=
    ⟨by decide, by decide, by decide, by decide, by decide, by decide⟩
  have htext : story.text = other.text := by decide +kernel
  exact ⟨hstory, hother, htext, (text_eq_iff hstory hother).mp htext⟩

end Story

end StoryKnobs
