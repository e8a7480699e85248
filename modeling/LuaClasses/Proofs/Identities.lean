import LuaClasses.Proofs.Session

/-!
This module contains what the name of a type without a declaration tells about the place or the
variable that it belongs to. File names and variable names may contain any character, also those
that separate the parts of a name. Still, types of different places and variables differ in their
names or in their flags. The reader of the names of doc-tables is less careful: it takes the first
bars for the separators, so it cuts a file name with a bar in it.
-/

namespace LuaClasses

namespace Text

theorem isDigit_of_mem_toString {n : Nat} {c : Char} (h : c ∈ (toString n).toList)
    : c.isDigit = true := by
  rw [Nat.toString_eq_ofList_toDigits, String.toList_ofList] at h
  exact Nat.isDigit_of_mem_toDigits (by omega) (by omega) h

theorem eq_of_toList_toString_eq {m n : Nat} (h : (toString m).toList = (toString n).toList)
    : m = n := by
  have hvalue := congrArg (Nat.ofDigitChars 10 · 0) h
  simpa [Nat.toString_eq_ofList_toDigits, Nat.ofDigitChars_toDigits] using hvalue

/--
There is one way to cut a text at its first character that is no digit.
-/
theorem digits_append_inj {ds ds' rest rest' : List Char} {c c' : Char}
    (hds : ∀ d ∈ ds, d.isDigit = true) (hds' : ∀ d ∈ ds', d.isDigit = true)
    (hc : c.isDigit = false) (hc' : c'.isDigit = false)
    (h : ds ++ c :: rest = ds' ++ c' :: rest')
    : ds = ds' ∧ c = c' ∧ rest = rest' := by
  have htake := congrArg (List.takeWhile Char.isDigit) h
  have hdrop := congrArg (List.dropWhile Char.isDigit) h
  rw [List.takeWhile_append_of_pos hds, List.takeWhile_append_of_pos hds',
    List.takeWhile_cons_of_neg (by simp [hc]), List.takeWhile_cons_of_neg (by simp [hc'])] at htake
  rw [List.dropWhile_append_of_pos hds, List.dropWhile_append_of_pos hds',
    List.dropWhile_cons_of_neg (by simp [hc]), List.dropWhile_cons_of_neg (by simp [hc'])] at hdrop
  simp only [List.append_nil] at htake
  rcases List.cons.inj hdrop with ⟨hchar, hrest⟩
  exact ⟨htake, hchar, hrest⟩

section Number

variable {m n : Nat} {c c' : Char} {rest rest' : List Char} (hc : c.isDigit = false)
  (hc' : c'.isDigit = false)

include hc hc' in
theorem number_append_inj
    (h : (toString m).toList ++ c :: rest = (toString n).toList ++ c' :: rest')
    : m = n ∧ c = c' ∧ rest = rest' := by
  rcases digits_append_inj (fun _ => isDigit_of_mem_toString) (fun _ => isDigit_of_mem_toString)
    hc hc' h with ⟨hdigits, hchar, hrest⟩
  exact ⟨eq_of_toList_toString_eq hdigits, hchar, hrest⟩

include hc hc' in
theorem append_number_inj
    (h : rest ++ c :: (toString m).toList = rest' ++ c' :: (toString n).toList)
    : rest = rest' ∧ c = c' ∧ m = n := by
  -- Read backwards, the number comes first.
  have hreverse := congrArg List.reverse h
  simp only [List.reverse_append, List.reverse_cons, List.append_assoc, List.singleton_append]
    at hreverse
  have hdigits : ∀ {k : Nat}, ∀ d ∈ (toString k).toList.reverse, d.isDigit = true :=
    fun _ hd => isDigit_of_mem_toString (List.mem_reverse.1 hd)
  rcases digits_append_inj hdigits hdigits hc hc' hreverse with ⟨hnumber, hchar, hrest⟩
  exact ⟨List.reverse_inj.1 hrest, hchar,
    eq_of_toList_toString_eq (List.reverse_inj.1 hnumber)⟩

end Number

end Text

namespace Identity

theorem anonymous_toList (file : String) (offset : Nat)
    : (anonymous file offset).toList = (toString offset).toList ++ '@' :: file.toList := by
  simp [anonymous]

theorem tableLiteral_toList (file : String) (offset : Nat)
    : (tableLiteral file offset).toList
        =
      (file.toList ++ ['@']) ++ '(' :: (toString offset).toList ++ ")table".toList := by
  simp [tableLiteral]

theorem docTable_toList (file : String) (offset : Nat)
    : (docTable file offset).toList
        =
      (toString docTableTag).toList ++ '|' :: (file.toList ++ '|' :: (toString offset).toList) := by
  simp [docTable]

theorem anonymous_inj {file file' : String} {offset offset' : Nat}
    (h : anonymous file offset = anonymous file' offset')
    : file = file' ∧ offset = offset' := by
  have hlist := congrArg String.toList h
  rw [anonymous_toList, anonymous_toList] at hlist
  rcases Text.number_append_inj rfl rfl hlist with ⟨hoffset, _, hfile⟩
  exact ⟨String.toList_injective hfile, hoffset⟩

theorem tableLiteral_inj {file file' : String} {offset offset' : Nat}
    (h : tableLiteral file offset = tableLiteral file' offset')
    : file = file' ∧ offset = offset' := by
  have hlist := congrArg String.toList h
  rw [tableLiteral_toList, tableLiteral_toList] at hlist
  rcases Text.append_number_inj rfl rfl (List.append_cancel_right hlist) with ⟨hfile, _, hoffset⟩
  exact ⟨String.toList_injective (List.append_cancel_right hfile), hoffset⟩

theorem docTable_inj {file file' : String} {offset offset' : Nat}
    (h : docTable file offset = docTable file' offset')
    : file = file' ∧ offset = offset' := by
  have hlist := congrArg String.toList h
  rw [docTable_toList, docTable_toList] at hlist
  rcases Text.number_append_inj rfl rfl hlist with ⟨_, _, hparts⟩
  rcases Text.append_number_inj rfl rfl hparts with ⟨hfile, _, hoffset⟩
  exact ⟨String.toList_injective hfile, hoffset⟩

theorem anonymous_ne_docTable (file file' : String) (offset offset' : Nat)
    : anonymous file offset ≠ docTable file' offset' := by
  intro h
  have hlist := congrArg String.toList h
  rw [anonymous_toList, docTable_toList] at hlist
  rcases Text.number_append_inj rfl rfl hlist with ⟨_, hchar, _⟩
  exact absurd hchar (by decide)

theorem globalType_inj {name name' : String} (h : globalType name = globalType name')
    : name = name' := by
  have hroot : ∀ name, globalRoot ≠ "$" ++ name := by
    intro name heq
    have hlist := congrArg String.toList heq
    simp [globalRoot] at hlist
  unfold globalType at h
  split at h
  . next hname =>
    split at h
    . exact h
    . rw [hname] at h
      exact absurd h (hroot name')
  . split at h
    . next hname' =>
      rw [hname'] at h
      exact absurd h.symm (hroot name)
    . exact String.append_right_inj _ |>.1 h

/-!
# Reading the name of a doc-table
-/

theorem cutBar?_append {before : List Char} (h : '|' ∉ before) (after : List Char)
    : cutBar? (before ++ '|' :: after) = some (before, after) := by
  induction before with
  | nil => rfl
  | cons c rest ih =>
    have hc : c ≠ '|' := fun hc => h (hc ▸ List.mem_cons_self)
    rw [List.cons_append, cutBar?, if_neg hc, ih fun hrest => h (List.mem_cons_of_mem c hrest)]
    rfl

theorem parseDocTable?_of_parts {file : String} {offset : Nat} {head rest : List Char}
    (hhead : '|' ∉ head)
    (h : file.toList ++ '|' :: (toString offset).toList = head ++ '|' :: rest)
    : parseDocTable? (docTable file offset) = some (String.ofList head, String.ofList rest) := by
  have htag : '|' ∉ (toString docTableTag).toList := by
    intro hbar
    exact absurd (Text.isDigit_of_mem_toString hbar) (by decide)
  have hread : Text.readNat? (toString docTableTag).toList = some docTableTag := by
    decide
  unfold parseDocTable?
  rw [docTable_toList, cutBar?_append htag, h]
  simp only [Option.bind_eq_bind, Option.bind_some]
  rw [cutBar?_append hhead]
  simp only [Option.bind_some, hread, if_true]

end Identity

open Identity in
/--
The name of a doc-table is read as one. What is taken for the file ends at the first bar after the
number of doc-tables, and the rest counts as the offset. These are the file and the offset exactly
if there is no bar in the name of the file.
-/
theorem docTable_read_back_iff (file : String) (offset : Nat)
    : (∃ head rest, parseDocTable? (docTable file offset) = some (head, rest) ∧
        '|' ∉ head.toList ∧ head ++ "|" ++ rest = file ++ "|" ++ toString offset) ∧
      (parseDocTable? (docTable file offset) = some (file, toString offset)
          ↔
        '|' ∉ file.toList) := by
  have hbar : '|' ∈ file.toList ++ '|' :: (toString offset).toList :=
    List.mem_append_right _ List.mem_cons_self
  rcases List.eq_append_cons_of_mem hbar with ⟨head, rest, hparts, hhead⟩
  have hparse := parseDocTable?_of_parts hhead hparts
  constructor
  . refine ⟨_, _, hparse, by rwa [String.toList_ofList], ?_⟩
    apply String.toList_injective
    simpa using hparts.symm
  . constructor
    . intro hfile
      rw [hparse] at hfile
      rcases Prod.mk.inj (Option.some.inj hfile) with ⟨hname, _⟩
      rwa [← hname, String.toList_ofList]
    . intro hfile
      have hread : parseDocTable? (docTable file offset) = _ := parseDocTable?_of_parts hfile rfl
      rwa [String.ofList_toList, String.ofList_toList] at hread

theorem bar_cuts_file_name
    : let name := Identity.docTable "a|b.lua" 5
      Identity.parseDocTable? name = some ("a", "b.lua|5") ∧
      Identity.parseDocTable? name ≠ some ("a|b.lua", toString 5) := by
  decide +kernel

/--
What a type without a declaration belongs to.
-/
inductive Source where
  | localVariable (file : String) (offset : Nat)
  | tableLiteral (file : String) (offset : Nat)
  | docTable (file : String) (offset : Nat)
  | globalVariable (name : String)
  deriving DecidableEq

namespace Source

def name : Source → String
  | .localVariable file offset => Identity.anonymous file offset
  | .tableLiteral file offset => Identity.tableLiteral file offset
  | .docTable file offset => Identity.docTable file offset
  | .globalVariable name => Identity.globalType name

def flags : Source → Flags
  | .localVariable .. => .anonymous
  | .tableLiteral .. => .union .anonymous .anonymousTable
  | .docTable .. => .anonymous
  | .globalVariable _ => .global

theorem eq_of_name_eq {a b : Source} (hname : a.name = b.name) (hflags : a.flags = b.flags)
    : a = b := by
  -- The flags leave two families that could share a name: those of locals and of doc-tables.
  cases a with
  | localVariable file offset =>
    cases b with
    | localVariable file' offset' =>
      rcases Identity.anonymous_inj hname with ⟨rfl, rfl⟩
      rfl
    | docTable file' offset' => exact absurd hname (Identity.anonymous_ne_docTable _ _ _ _)
    | tableLiteral | globalVariable =>
      dsimp only [flags] at hflags
      exact absurd hflags (by decide)
  | tableLiteral file offset =>
    cases b with
    | tableLiteral file' offset' =>
      rcases Identity.tableLiteral_inj hname with ⟨rfl, rfl⟩
      rfl
    | localVariable | docTable | globalVariable =>
      dsimp only [flags] at hflags
      exact absurd hflags (by decide)
  | docTable file offset =>
    cases b with
    | docTable file' offset' =>
      rcases Identity.docTable_inj hname with ⟨rfl, rfl⟩
      rfl
    | localVariable file' offset' =>
      exact absurd hname.symm (Identity.anonymous_ne_docTable _ _ _ _)
    | tableLiteral | globalVariable =>
      dsimp only [flags] at hflags
      exact absurd hflags (by decide)
  | globalVariable name =>
    cases b with
    | globalVariable name' => exact congrArg globalVariable (Identity.globalType_inj hname)
    | localVariable | tableLiteral | docTable =>
      dsimp only [flags] at hflags
      exact absurd hflags (by decide)

end Source

/--
What the class that is made belongs to, if it has no declaration. A global variable that is read may
also have the class of its name, so only one that is written has a type of its own.
-/
def Maker.source? : Maker → Option Source
  | .localVariable file offset _ => some (.localVariable file offset)
  | .tableLiteral file offset _ => some (.tableLiteral file offset)
  | .docTable file offset _ => some (.docTable file offset)
  | .globalVariable name true => some (.globalVariable name)
  | _ => none

theorem Class.ofFields_run (name : String) (varName superName aliasName : Option String)
    (flags : Flags) (s : QueryState)
    : ((ofFields name varName superName aliasName flags).run s).1.name = name ∧
      ((ofFields name varName superName aliasName flags).run s).1.flags = flags := by
  unfold ofFields
  split <;> exact ⟨rfl, rfl⟩

theorem Maker.run_of_source {m : Maker} {a : Source} (h : m.source? = some a) (ctx : Context)
    (s : QueryState)
    : ∃ c, ((m.run ctx).run s).1 = .cls c ∧ c.name = a.name ∧ c.flags = a.flags := by
  cases m with
  | localVariable file offset name =>
    cases h
    refine ⟨_, ?_, Class.ofFields_run (Identity.anonymous file offset) (some name) none none
      .anonymous s⟩
    rw [Maker.run, Class.ofLocal, Query.run_bind]
    rfl
  | tableLiteral file offset fields =>
    cases h
    exact ⟨_, rfl, rfl, rfl⟩
  | docTable file offset fields =>
    cases h
    exact ⟨_, rfl, rfl, rfl⟩
  | globalVariable name store =>
    cases store with
    | true =>
      cases h
      refine ⟨_, ?_, Class.ofFields_run (Identity.globalType name) (some name) none none .global s⟩
      rw [Maker.run, Ty.ofGlobal, Query.run_bind]
      rfl
    | false => cases h
  | reference | persisted | declaration | type => cases h

/--
Classes of local variables, table literals, doc-tables and global variables that are written have
the same identity exactly if they belong to the same place or the same variable. Neither the
contexts and the states in which they are made nor the names of locals and the fields of tables
matter.
-/
theorem same_identity_iff_same_source (ctx ctx' : Context) (m m' : Maker) (a b : Source)
    (ha : m.source? = some a) (hb : m'.source? = some b) (s s' : QueryState)
    : ∃ c d, ((m.run ctx).run s).1 = .cls c ∧ ((m'.run ctx').run s').1 = .cls d ∧
        ((c == d) = true ↔ a = b) := by
  rcases Maker.run_of_source ha ctx s with ⟨c, hc, hname, hflags⟩
  rcases Maker.run_of_source hb ctx' s' with ⟨d, hd, hname', hflags'⟩
  refine ⟨c, d, hc, hd, ?_⟩
  rw [Class.beq_def, hname, hname', hflags, hflags', Bool.and_eq_true, beq_iff_eq, beq_iff_eq]
  constructor
  . exact fun h => Source.eq_of_name_eq h.1 h.2
  . rintro rfl
    exact ⟨rfl, rfl⟩

/--
A local variable and a table literal share a name, and are told apart by their flags. What the local
variable is called makes no difference.
-/
theorem same_identity_iff_same_source_clash
    : let ctx : Context := { index := {} }
      let s := QueryState.fresh .standard
      let point := Maker.localVariable "(5)table" 1 "point"
      let other := Maker.localVariable "(5)table" 1 "other"
      let literal := Maker.tableLiteral "1" 5 []
      Identity.anonymous "(5)table" 1 = Identity.tableLiteral "1" 5 ∧
      (∃ c d, ((point.run ctx).run s).1 = .cls c ∧ ((literal.run ctx).run s).1 = .cls d ∧
        (c == d) = false) ∧
      (∃ c d, ((point.run ctx).run s).1 = .cls c ∧ ((other.run ctx).run s).1 = .cls d ∧
        (c == d) = true) := by
  intro ctx s point other literal
  refine ⟨by decide +kernel, ?_, ?_⟩
  . rcases same_identity_iff_same_source ctx ctx point literal _ _ rfl rfl s s with
      ⟨c, d, hc, hd, hiff⟩
    refine ⟨c, d, hc, hd, ?_⟩
    rw [← Bool.not_eq_true, hiff]
    decide
  . rcases same_identity_iff_same_source ctx ctx point other _ _ rfl rfl s s with
      ⟨c, d, hc, hd, hiff⟩
    exact ⟨c, d, hc, hd, hiff.2 rfl⟩

end LuaClasses
