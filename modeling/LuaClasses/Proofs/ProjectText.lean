import LuaClasses.Project
import LuaClasses.Proofs.JsonText

/-!
This module contains the proof that a project is read back from its text. The text of a project is
read in two passes: the reader of JSON gives the value that was written, and every reader of project
data gives back what the value was made from, as long as the value can be taken in as a whole at the
place where it stands.
-/

namespace LuaClasses
namespace Json

section Depth

mutual

/--
The number of arrays and objects that are open at once where the value nests most deeply.
-/
def nesting : Json → Nat
  | .null => 0
  | .bool _ => 0
  | .number _ => 0
  | .string _ => 0
  | .array elements => nestingOfElements elements + 1
  | .object entries => nestingOfEntries entries + 1

def nestingOfElements : List Json → Nat
  | [] => 0
  | v :: rest => max (nesting v) (nestingOfElements rest)

def nestingOfEntries : List (Option String × Json) → Nat
  | [] => 0
  | (_, v) :: rest => max (nesting v) (nestingOfEntries rest)

end

theorem nesting_le_of_mem_elements {elements : List Json} {v : Json} (h : v ∈ elements)
    : v.nesting ≤ nestingOfElements elements := by
  induction elements with
  | nil => cases h
  | cons u rest ih =>
    rw [nestingOfElements]
    rcases List.mem_cons.1 h with rfl | h
    . omega
    . have := ih h
      omega

theorem nesting_le_of_mem_entries {entries : List (Option String × Json)}
    {e : Option String × Json} (h : e ∈ entries)
    : e.2.nesting ≤ nestingOfEntries entries := by
  induction entries with
  | nil => cases h
  | cons f rest ih =>
    rcases f with ⟨key, v⟩
    rw [nestingOfEntries]
    rcases List.mem_cons.1 h with rfl | h
    . dsimp only
      omega
    . have := ih h
      omega

theorem readable_array {depth : Nat} {elements : List Json}
    : (array elements).readable depth = true
        ↔
      depth < maxDepth ∧ ∀ v ∈ elements, v.readable (depth + 1) = true := by
  have helements : readableElements (depth + 1) elements = true
      ↔ ∀ v ∈ elements, v.readable (depth + 1) = true := by
    induction elements with
    | nil => simp [readableElements]
    | cons v rest ih => simp [readableElements, ih]
  rw [readable, Bool.and_eq_true, decide_eq_true_iff, helements]

theorem readable_object {depth : Nat} {entries : List (Option String × Json)}
    : (object entries).readable depth = true
        ↔
      depth < maxDepth ∧ ∀ e ∈ entries, e.1.isSome = true ∧ e.2.readable (depth + 1) = true := by
  have hentries : readableEntries (depth + 1) entries = true
      ↔ ∀ e ∈ entries, e.1.isSome = true ∧ e.2.readable (depth + 1) = true := by
    induction entries with
    | nil => simp [readableEntries]
    | cons e rest ih =>
      rcases e with ⟨key, v⟩
      simp [readableEntries, ih]
  rw [readable, Bool.and_eq_true, decide_eq_true_iff, hentries]

theorem readable_record {depth : Nat} {entries : List (String × Json)}
    : (record entries).readable depth = true
        ↔
      depth < maxDepth ∧ ∀ e ∈ entries, e.2.readable (depth + 1) = true := by
  rw [record, readable_object, List.forall_mem_map]
  simp

theorem readable_of_nesting {v : Json} {depth : Nat} (h : v.isTextual = true)
    (hdepth : depth + v.nesting ≤ maxDepth)
    : v.readable depth = true := by
  induction v generalizing depth with
  | null => rfl
  | bool b => rfl
  | number n => cases h
  | string s => exact h
  | array elements ih =>
    rw [isTextual_array] at h
    rw [nesting] at hdepth
    rw [readable_array]
    refine ⟨by omega, ?_⟩
    intro v hv
    have hle := nesting_le_of_mem_elements hv
    exact ih v hv (h v hv) (by omega)
  | object entries ih =>
    rw [isTextual_object] at h
    rw [nesting] at hdepth
    rw [readable_object]
    refine ⟨by omega, ?_⟩
    intro e he
    have hle := nesting_le_of_mem_entries he
    exact ⟨(h e he).1, ih e he (h e he).2 (by omega)⟩

end Depth

section Shape

theorem mapM_map {f : α → β} {read? : β → Option γ} {g : α → γ} {xs : List α}
    (h : ∀ x ∈ xs, read? (f x) = some (g x))
    : (xs.map f).mapM read? = some (xs.map g) := by
  induction xs with
  | nil => rfl
  | cons x xs ih =>
    rw [List.map_cons, List.mapM_cons, h x List.mem_cons_self,
      ih fun y hy => h y (List.mem_cons_of_mem _ hy)]
    rfl

theorem mapM_map_self {f : α → β} {read? : β → Option α} {xs : List α}
    (h : ∀ x ∈ xs, read? (f x) = some x)
    : (xs.map f).mapM read? = some xs := by
  have hid : (xs.map f).mapM read? = some (xs.map id) := mapM_map h
  rwa [List.map_id] at hid

theorem listAt?_map {depth : Nat} {toJson : α → Json} {read? : Json → Option α} {xs : List α}
    (h : (array (xs.map toJson)).readable depth = true)
    (hread : ∀ x, (toJson x).readable (depth + 1) = true → read? (toJson x) = some x)
    : listAt? depth read? (array (xs.map toJson)) = some xs := by
  rw [readable_array, List.forall_mem_map] at h
  have helements : elementsAt? depth (array (xs.map toJson)) = some (xs.map toJson) := if_pos h.1
  rw [listAt?, helements]
  exact mapM_map_self fun x hx => hread x (h.2 x hx)

theorem entriesAt?_record {depth : Nat} (h : depth < maxDepth) (entries : List (String × Json))
    : entriesAt? depth (record entries) = some entries := by
  rw [record, entriesAt?, if_pos h]
  exact mapM_map_self fun _ _ => rfl

theorem single?_of_mem {entries : List (String × Json)} {e : String × Json}
    (hnodup : (entries.map Prod.fst).Nodup) (h : e ∈ entries)
    : single? entries e.1 = some (some e.2) := by
  have hfilter : entries.filter (·.1 == e.1) = [e] := by
    induction entries with
    | nil => cases h
    | cons f rest ih =>
      rw [List.map_cons, List.nodup_cons] at hnodup
      rcases List.mem_cons.1 h with rfl | h
      . have hrest : rest.filter (·.1 == e.1) = [] := by
          rw [List.filter_eq_nil_iff]
          intro g hg hkey
          exact hnodup.1 (eq_of_beq hkey ▸ List.mem_map_of_mem hg)
        rw [List.filter_cons_of_pos (by simp), hrest]
      . have hkey : f.1 ≠ e.1 := fun hkey => hnodup.1 (hkey ▸ List.mem_map_of_mem h)
        rw [List.filter_cons_of_neg (by simpa using hkey)]
        exact ih hnodup.2 h
  rw [single?, hfilter]

theorem mem_of_single? {entries : List (String × Json)} {key : String} {v : Json}
    (h : single? entries key = some (some v))
    : (key, v) ∈ entries := by
  unfold single? at h
  split at h
  . cases h
  . next name _ hfilter =>
    cases h
    have hmem : (name, v) ∈ entries.filter (·.1 == key) := hfilter ▸ List.mem_singleton_self _
    rcases List.mem_filter.1 hmem with ⟨hentry, hname⟩
    rwa [← eq_of_beq hname]
  . cases h

theorem mapM_single? {entries : List (String × Json)} (h : (entries.map Prod.fst).Nodup)
    : (entries.map Prod.fst).mapM (single? entries) = some (entries.map fun e => some e.2) :=
  mapM_map fun _ he => single?_of_mem h he

theorem fieldsAt?_record {depth : Nat} {entries : List (String × Json)}
    (h : (record entries).readable depth = true) (hnodup : (entries.map Prod.fst).Nodup)
    : fieldsAt? depth (entries.map Prod.fst) (record entries)
        =
      some (entries.map fun e => some e.2) := by
  have hentries := entriesAt?_record (readable_record.1 h).1 entries
  change (entriesAt? depth (record entries) >>= _) = _
  rw [hentries]
  exact mapM_single? hnodup

@[simp]
theorem field?_some (default : α) (read? : Json → Option α) (v : Json)
    : field? default read? (some v) = read? v :=
  rfl

@[simp]
theorem text?_text (s : String) : text? (text s) = some s :=
  rfl

@[simp]
theorem bool?_bool (b : Bool) : bool? (bool b) = some b :=
  rfl

@[simp]
theorem optionText?_optionText (s : Option String) : optionText? (optionText s) = some s := by
  cases s <;> rfl

theorem listAt?_texts {depth : Nat} {ss : List String} (h : (texts ss).readable depth = true)
    : listAt? depth text? (texts ss) = some ss :=
  listAt?_map h fun _ _ => rfl

end Shape

section Textual

@[simp]
theorem isTextual_text (s : String) : (text s).isTextual = true :=
  rfl

@[simp]
theorem isTextual_bool (b : Bool) : (bool b).isTextual = true :=
  rfl

@[simp]
theorem isTextual_optionText (s : Option String) : (optionText s).isTextual = true := by
  cases s <;> rfl

@[simp]
theorem isTextual_texts (ss : List String) : (texts ss).isTextual = true := by
  simp [texts]

@[simp]
theorem isTextual_record {entries : List (String × Json)}
    : (record entries).isTextual = true ↔ ∀ e ∈ entries, e.2.isTextual = true := by
  rw [record, isTextual_object, List.forall_mem_map]
  simp

end Textual

end Json

namespace TypeExpr

mutual

theorem ofJson?_toJson : ∀ e : TypeExpr, ofJson? e.toJson = some e
  | .named _ => rfl
  | .array element => by
    have helement := ofJson?_toJson element
    simp [toJson, Json.record, ofJson?, readings, ofReadings?, single?, helement]
  | .generic base params => by
    have hparams := elementsOfJson?_listToJson params
    simp [toJson, Json.record, ofJson?, readings, ofReadings?, single?, listOfJson?, hparams,
      Json.text, Json.text?]
  | .union members => by
    have hmembers := elementsOfJson?_listToJson members
    simp [toJson, Json.record, ofJson?, readings, ofReadings?, single?, listOfJson?, hmembers]

theorem elementsOfJson?_listToJson : ∀ es : List TypeExpr, elementsOfJson? (listToJson es) = some es
  | [] => rfl
  | e :: es => by
    rw [listToJson, elementsOfJson?, ofJson?_toJson e, elementsOfJson?_listToJson es]
    rfl

end

mutual

theorem isTextual_toJson : ∀ e : TypeExpr, e.toJson.isTextual = true
  | .named _ => rfl
  | .array element => by
    have helement := isTextual_toJson element
    simp [toJson, helement]
  | .generic base params => by
    have hparams := isTextual_listToJson params
    simpa [toJson] using hparams
  | .union members => by
    have hmembers := isTextual_listToJson members
    simpa [toJson] using hmembers

theorem isTextual_listToJson : ∀ es : List TypeExpr, ∀ v ∈ listToJson es, v.isTextual = true
  | [], _, h => by cases h
  | e :: es, v, h => by
    rcases List.mem_cons.1 h with rfl | h
    . exact isTextual_toJson e
    . exact isTextual_listToJson es v h

end

theorem readAt?_toJson {depth : Nat} {e : TypeExpr} (h : e.toJson.readable depth = true)
    : readAt? depth e.toJson = some e := by
  rw [readAt?, if_pos h]
  exact ofJson?_toJson e

end TypeExpr

theorem Visibility.readAt?_name (depth : Nat) (v : Visibility)
    : readAt? depth (.text v.name) = some v := by
  cases v <;> rfl

theorem Member.isTextual_toJson (m : Member) : m.toJson.isTextual = true := by
  simp [toJson, TypeExpr.isTextual_toJson]

theorem AliasDecl.isTextual_toJson (a : AliasDecl) : a.toJson.isTextual = true := by
  simp [toJson, TypeExpr.isTextual_toJson]

theorem ClassEntry.isTextual_toJson (e : ClassEntry) : e.toJson.isTextual = true := by
  rcases e with ⟨decl, members, _ | file⟩ <;>
    simp [toJson, ClassDecl.toEntries, Member.isTextual_toJson]

theorem Member.readAt?_toJson {depth : Nat} {m : Member} (h : m.toJson.readable depth = true)
    : readAt? depth m.toJson = some m := by
  have hfields : Json.fieldsAt? depth ["name", "owner", "visibility", "type"] m.toJson = _ :=
    Json.fieldsAt?_record h (by simp)
  have htype := (Json.readable_record.1 h).2 ("type", m.type.toJson) (by simp)
  rw [readAt?, hfields]
  simp [Visibility.readAt?_name, TypeExpr.readAt?_toJson htype]

theorem AliasDecl.readAt?_toJson {depth : Nat} {a : AliasDecl}
    (h : a.toJson.readable depth = true)
    : readAt? depth a.toJson = some a := by
  have hfields : Json.fieldsAt? depth ["name", "type"] a.toJson = _ :=
    Json.fieldsAt?_record h (by simp)
  have htype := (Json.readable_record.1 h).2 ("type", a.type.toJson) (by simp)
  rw [readAt?, hfields]
  simp [TypeExpr.readAt?_toJson htype]

theorem Options.readAt?_toJson {depth : Nat} {o : Options} (h : o.toJson.readable depth = true)
    : readAt? depth o.toJson = some o := by
  have hfields : Json.fieldsAt? depth ["recognizeGlobalNameAsType"] o.toJson = _ :=
    Json.fieldsAt?_record h (by simp)
  rw [readAt?, hfields]
  simp

theorem ClassDecl.ofFields?_toEntries {depth : Nat} {d : ClassDecl}
    (h : (Json.texts d.header.interfaceNames).readable depth = true)
    : ofFields? depth (d.toEntries.map fun e => some e.2) = some d := by
  simp [toEntries, ofFields?, Json.listAt?_texts h]

/--
The entries of a class entry are those of its declaration with up to two others beside them.
-/
theorem ClassEntry.exists_entries (e : ClassEntry)
    : ∃ entries, e.toJson = .record entries ∧
        Json.single? entries "members" = some (some (.array (e.members.map Member.toJson))) ∧
        Json.single? entries "file" = some (e.file.map .text) ∧
        (entries.filter fun f => f.1 != "members" && f.1 != "file") = e.decl.toEntries := by
  refine ⟨_, rfl, ?_⟩
  rcases e with ⟨decl, members, _ | file⟩
  . simp [Json.single?, ClassDecl.toEntries]
  . simp [Json.single?, ClassDecl.toEntries]

theorem ClassEntry.readAt?_toJson {depth : Nat} {e : ClassEntry}
    (h : e.toJson.readable depth = true)
    : readAt? depth e.toJson = some e := by
  rcases e.exists_entries with ⟨entries, hentries, hmembers, hfile, hothers⟩
  rw [hentries, Json.readable_record] at h
  have hdecl : ∀ f ∈ e.decl.toEntries, f.2.readable (depth + 1) = true := by
    intro f hf
    rw [← hothers] at hf
    exact h.2 f (List.mem_filter.1 hf).1
  have hall : (e.decl.toEntries.all fun f => f.2.readable (depth + 1)) = true :=
    List.all_eq_true.2 hdecl
  have hnodup : (e.decl.toEntries.map Prod.fst).Nodup := by
    simp [ClassDecl.toEntries]
  have hnames : ClassDecl.fieldNames.mapM (Json.single? e.decl.toEntries) = _ :=
    Json.mapM_single? hnodup
  have hfields := ClassDecl.ofFields?_toEntries
    (hdecl ("interfaceNames", .texts e.decl.header.interfaceNames) (by simp [ClassDecl.toEntries]))
  have hlist := Json.listAt?_map (h.2 _ (Json.mem_of_single? hmembers))
    fun _ => Member.readAt?_toJson
  have htext : Json.field? none Json.optionText? (e.file.map .text) = some e.file := by
    cases e.file <;> rfl
  rw [readAt?, hentries, Json.entriesAt?_record h.1]
  simp [hmembers, hfile, hothers, hall, hnames, hfields, hlist, htext]

namespace MemberTable

theorem isTextual_toJson (table : MemberTable) : (toJson table).isTextual = true := by
  rw [toJson, Json.isTextual_record, List.forall_mem_map]
  simp [Member.isTextual_toJson]

theorem set_of_not_mem {owner : String} {table : MemberTable} (h : owner ∉ table.map Prod.fst)
    (members : List Member)
    : set owner members table = table ++ [(owner, members)] := by
  induction table with
  | nil => rfl
  | cons row rest ih =>
    rcases row with ⟨name, old⟩
    rw [List.map_cons, List.mem_cons, not_or] at h
    rw [set, if_neg (by simpa using Ne.symm h.1), ih h.2]
    rfl

theorem foldl_set {table rows : MemberTable} (h : ((table ++ rows).map Prod.fst).Nodup)
    : rows.foldl (fun table row => set row.1 row.2 table) table = table ++ rows := by
  induction rows generalizing table with
  | nil => simp
  | cons row rows ih =>
    have hnew : row.1 ∉ table.map Prod.fst := by
      rw [List.map_append, List.map_cons, List.nodup_append] at h
      intro hmem
      exact h.2.2 _ hmem _ List.mem_cons_self rfl
    rw [List.append_cons] at h ⊢
    rw [List.foldl_cons, set_of_not_mem hnew, ih h]

theorem readAt?_toJson {depth : Nat} {table : MemberTable} (hnodup : (table.map Prod.fst).Nodup)
    (h : (toJson table).readable depth = true)
    : readAt? depth (toJson table) = some table := by
  rcases Json.readable_record.1 h with ⟨hdepth, hrows⟩
  rw [List.forall_mem_map] at hrows
  rw [readAt?, toJson, Json.entriesAt?_record hdepth]
  simp only [Option.bind_eq_bind, Option.bind_some]
  rw [Option.bind_eq_some_iff]
  refine ⟨table, ?_, ?_⟩
  . apply Json.mapM_map_self
    intro row hrow
    rw [Json.listAt?_map (hrows row hrow) fun _ => Member.readAt?_toJson]
    rfl
  . apply congrArg some
    exact foldl_set hnodup

end MemberTable

namespace Project

theorem ofJson?_toJson {p : Project} (howners : (p.members.map Prod.fst).Nodup)
    (h : p.toJson.readable 0 = true)
    : ofJson? p.toJson = some p := by
  have hfields : Json.fieldsAt? 0 ["options", "classes", "members", "aliases"] p.toJson = _ :=
    Json.fieldsAt?_record h (by simp)
  rcases Json.readable_record.1 h with ⟨_, hentries⟩
  simp only [List.forall_mem_cons] at hentries
  rcases hentries with ⟨hoptions, hclasses, hmembers, haliases, _⟩
  rw [ofJson?, hfields]
  simp [Options.readAt?_toJson hoptions, MemberTable.readAt?_toJson howners hmembers,
    Json.listAt?_map hclasses fun _ => ClassEntry.readAt?_toJson,
    Json.listAt?_map haliases fun _ => AliasDecl.readAt?_toJson]

theorem isTextual_toJson (p : Project) : p.toJson.isTextual = true := by
  simp [toJson, Options.toJson, MemberTable.isTextual_toJson, ClassEntry.isTextual_toJson,
    AliasDecl.isTextual_toJson]

theorem parse_toText (p : Project) (howners : (p.members.map Prod.fst).Nodup)
    (hnesting : p.toJson.nesting ≤ 127)
    : parse? p.toText = some p := by
  have htextual := p.isTextual_toJson
  have hreadable : p.toJson.readable 0 = true := by
    apply Json.readable_of_nesting htextual
    rw [Nat.zero_add]
    exact hnesting
  rw [parse?, toText, Json.parse?_compact htextual]
  exact ofJson?_toJson howners hreadable

/--
A project in which every form of a type is used, with names that need escapes in the text.
-/
def zoo : Project where
  options := { globalNamesAsTypes := false }
  classes := [
    { decl := (ClassDecl.ofName "Hund \"日本\"").withInterfaces ["Tier\n\t", "\u0001\\"]
      members := [
        .unnamed (.array (.union [.named "nil", .generic "table" [.named "", .unknown]])),
        (Member.new "bark" .priv (.named "fun()")).withOwner "Hund"]
      file := some "src/𝄞.lua" },
    { decl := (ClassDecl.ofName "").asEnum.withAlias (some "") }]
  members := [("b", []), ("a", [.new "x" .prot (.union [])])]
  aliases := [{ name := "Id", type := .union [.named "string", .array (.named "number")] }]

theorem parse_toText_zoo
    : (zoo.members.map Prod.fst).Nodup ∧ zoo.toJson.nesting = 10 ∧
        parse? zoo.toText = some zoo :=
  ⟨by decide, by decide, parse_toText zoo (by decide) (by decide)⟩

end Project

end LuaClasses
