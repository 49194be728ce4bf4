import Mathlib
import Idyl.Library.Resolver
import Idyl.Proofs.Token.Spelling

/-!
# What a directory contains

A path to a directory leads to a place in a tree of files, and what the directory contains stands
one component further.  A library is looked for by a path that is made out of texts: the path of
the directory, the name of the library and the extension of program files.  This path leads to
the entry of the directory that has the name of the library and the extension, whatever the path
of the directory looks like.

## Main definitions

* `Idyl.FileTree.directory?` — the place of the directory that a path leads to.
* `Idyl.FileTree.entryIn?` — what a directory contains under a name.
* `Idyl.LibraryDir.snapshot` — the libraries in a directory, held in memory.

## Main results

* `Idyl.LibraryDir.fileOf_eq` — the file of a library lies in the directory.
* `Idyl.FileTree.view_join` — a path into a directory leads to what the directory contains.
* `Idyl.LibraryDir.mirrors_snapshot` — which libraries are held in memory.
-/

set_option autoImplicit false

namespace Idyl

/-! ## Names -/

/-- A text that is one component of a path and leads to an entry of a directory. -/
structure Path.IsName (name : String) : Prop where
  slash_notMem : '/' ∉ name.toList
  not_stay : FileTree.isStay name = false
  ne_up : name ≠ ".."

/-- A name of a file is not empty. -/
lemma Path.IsName.ne_empty {name : String} (h : IsName name) : name ≠ "" := by
  rintro rfl
  exact absurd h.not_stay (by decide)

/-- The name of the file of a library. -/
def libraryFile (name : String) : String := name ++ "." ++ sourceExtension

/-- The file of a library is its name with an extension. -/
lemma toList_libraryFile (name : String) :
    (libraryFile name).toList = name.toList ++ ['.', 'i', 'd', 'y', 'l'] := by
  simp [libraryFile, sourceExtension]

/-- An identifier is a word. -/
lemma isWord_of_isIdentifier {name : String} (h : isIdentifier name = true) :
    isWord name.toList = true :=
  (Bool.and_eq_true_iff.1 h).1

/-- An identifier is not empty. -/
lemma ne_empty_of_isIdentifier {name : String} (h : isIdentifier name = true) : name ≠ "" := by
  rintro rfl
  exact absurd (isWord_of_isIdentifier h) (by decide)

/-- Neither a slash nor a point stands in the name of a library. -/
lemma ne_of_mem_of_isIdentifier {name : String} (h : isIdentifier name = true) {c : Char}
    (hc : c ∈ name.toList) : c ≠ '/' ∧ c ≠ '.' := by
  have hword := isWord_of_isIdentifier h
  have hchar : isWordStart c = true ∨ isWordRest c = true := by
    cases hlist : name.toList with
    | nil => simp [hlist] at hc
    | cons d ds =>
      rw [hlist] at hc hword
      obtain ⟨hd, hds⟩ := Bool.and_eq_true_iff.1 hword
      rcases List.mem_cons.1 hc with rfl | hc
      · exact .inl hd
      · exact .inr (List.all_eq_true.1 hds c hc)
  constructor <;> rintro rfl <;> exact absurd hchar (by decide)

/-- The file of a library has a name that is longer than a dot or two. -/
lemma isName_libraryFile {name : String} (h : isIdentifier name = true) :
    Path.IsName (libraryFile name) := by
  have hlength : 5 ≤ (libraryFile name).toList.length := by simp [toList_libraryFile]
  refine ⟨?_, ?_, ?_⟩
  · rw [toList_libraryFile, List.mem_append]
    rintro (hc | hc)
    · exact (ne_of_mem_of_isIdentifier h hc).1 rfl
    · simp at hc
  · simp only [FileTree.isStay, Bool.or_eq_false_iff, decide_eq_false_iff_not]
    constructor <;> intro heq <;> rw [heq] at hlength <;> exact absurd hlength (by decide)
  · intro heq
    rw [heq] at hlength
    exact absurd hlength (by decide)

/-! ## Paths into a directory -/

namespace Path

variable {dir name : String}

/-- A path without slashes does not start at the root. -/
lemma isAbsolute_eq_false (h : '/' ∉ name.toList) : isAbsolute name = false := by
  simp only [isAbsolute, decide_eq_false_iff_not]
  exact fun hhead => h (List.mem_of_mem_head? hhead)

/-- **A path into a directory** ends in a name, behind a slash unless the path of the directory is
empty.  This slash is new, or the last character of the path of the directory. -/
lemma join_cases (dir : String) (h : '/' ∉ name.toList) :
    dir = "" ∧ join dir name = name ∨
      ∃ cs, (dir.toList = cs ++ ['/'] ∨ dir.toList = cs ∧ cs ≠ []) ∧
        (join dir name).toList = cs ++ '/' :: name.toList := by
  rw [join, if_neg (by simp [isAbsolute_eq_false h])]
  by_cases hempty : dir = ""
  · exact .inl ⟨hempty, by simp [hempty]⟩
  refine .inr ?_
  by_cases hslash : dir.toList.getLast? = some '/'
  · obtain ⟨cs, hcs⟩ := List.getLast?_eq_some_iff.1 hslash
    refine ⟨cs, .inl hcs, ?_⟩
    rw [if_pos (by simp [hslash]), String.toList_append, hcs, List.append_assoc]
    rfl
  · refine ⟨dir.toList, .inr ⟨rfl, by simpa using hempty⟩, ?_⟩
    rw [if_neg (by simp [hslash, hempty]), String.toList_append, String.toList_append,
      List.append_assoc]
    rfl

/-- An extension is put behind the joined path. -/
lemma join_append (dir : String) {suffix : String} (h : '/' ∉ (name ++ suffix).toList) :
    join dir (name ++ suffix) = join dir name ++ suffix := by
  have hname : '/' ∉ name.toList := fun hmem => h (by simp [hmem])
  rw [join, join, isAbsolute_eq_false h, isAbsolute_eq_false hname]
  simp only [Bool.false_eq_true, if_false]
  split <;> simp only [String.append_assoc]

/-- Where no slash and no point is last, nothing is trimmed. -/
lemma trimReversed_eq {c : Char} {cs : List Char} (h : c ≠ '/' ∧ c ≠ '.') :
    trimReversed (c :: cs) = c :: cs := by
  unfold trimReversed
  split
  · simp_all
  · simp_all
  · rfl

/-- The last component of a path, if it is a word, and what stands before it. -/
lemma splitReversed_eq {path : String} {before word : List Char}
    (hpath : path.toList = before ++ word) (hbefore : before = [] ∨ ∃ cs, before = cs ++ ['/'])
    (hne : word ≠ []) (hword : ∀ c ∈ word, c ≠ '/' ∧ c ≠ '.') :
    splitReversed path = (word.reverse, before.reverse) := by
  have htrim : trimReversed path.toList.reverse = word.reverse ++ before.reverse := by
    rw [hpath, List.reverse_append]
    cases hrev : word.reverse with
    | nil => exact absurd (List.reverse_eq_nil_iff.1 hrev) hne
    | cons c cs => exact trimReversed_eq (hword c (List.mem_reverse.1 (by simp [hrev])))
  have hall : ∀ c ∈ word.reverse, decide (c ≠ '/') = true := fun c hc =>
    decide_eq_true (hword c (List.mem_reverse.1 hc)).1
  rw [splitReversed, htrim]
  simp only [List.takeWhile_append_of_pos hall, List.dropWhile_append_of_pos hall]
  rcases hbefore with rfl | ⟨cs, rfl⟩ <;> simp

/-- **The extension of a path that ends in a word** comes behind the word. -/
lemma withExtension_eq {path ext : String} {before word : List Char}
    (hpath : path.toList = before ++ word) (hbefore : before = [] ∨ ∃ cs, before = cs ++ ['/'])
    (hne : word ≠ []) (hword : ∀ c ∈ word, c ≠ '/' ∧ c ≠ '.') :
    withExtension path ext = path ++ "." ++ ext := by
  have hsplit := splitReversed_eq hpath hbefore hne hword
  have hpoint : '.' ∉ word.reverse := fun hc => (hword _ (List.mem_reverse.1 hc)).2 rfl
  have hfile : isFileName word.reverse = true := by
    simp only [isFileName, Bool.and_eq_true, decide_eq_true_eq]
    refine ⟨⟨by simpa using hne, ?_⟩, ?_⟩ <;> intro heq <;> simp [heq] at hpoint
  have hstem : splitExtension word.reverse = (word.reverse, none) := by
    have hdrop : word.reverse.dropWhile (fun c => decide (c ≠ '.')) = [] := by
      rw [List.dropWhile_eq_nil_iff]
      exact fun c hc => decide_eq_true (ne_of_mem_of_not_mem hc hpoint)
    rw [splitExtension, hdrop]
  have hcut : cutExtension path = path := by
    rw [cutExtension, extension?, hsplit]
    simp [hfile, hstem]
  rw [withExtension, hcut, hsplit]
  simp only [hfile, hstem, if_true, List.reverse_reverse, ← hpath, String.ofList_toList]

end Path

namespace LibraryDir

/-- **The file of a library** lies in the directory. -/
lemma fileOf_eq (d : LibraryDir) {name : String} (h : isIdentifier name = true) :
    d.fileOf name = Path.join d.path (libraryFile name) := by
  have hword : ∀ c ∈ name.toList, c ≠ '/' ∧ c ≠ '.' := fun c => ne_of_mem_of_isIdentifier h
  have hne : name.toList ≠ [] := by simpa using ne_empty_of_isIdentifier h
  have hslash := (isName_libraryFile h).slash_notMem
  have hname : '/' ∉ name.toList := fun hmem => (hword _ hmem).1 rfl
  rw [libraryFile, String.append_assoc] at hslash ⊢
  rw [Path.join_append d.path hslash, fileOf, ← String.append_assoc]
  rcases Path.join_cases d.path hname with ⟨-, hjoin⟩ | ⟨cs, -, hjoin⟩
  · rw [hjoin]
    exact Path.withExtension_eq (List.nil_append _).symm (.inl rfl) hne hword
  · have hpath : (Path.join d.path name).toList = (cs ++ ['/']) ++ name.toList := by simp [hjoin]
    exact Path.withExtension_eq hpath (.inr ⟨cs, rfl⟩) hne hword

end LibraryDir

/-! ## Following a path -/

namespace FileTree

variable {t : FileTree} {name : String} {e : Entry}

/-- The place of the directory that components of a path lead to from a place in the tree. -/
def walk (t : FileTree) (place : List String) (cs : List String) : Option (List String) :=
  match t.at? place with
  | some .directory =>
    match cs with
    | [] => some place
    | c :: cs =>
      if isStay c then t.walk place cs
      else if c = ".." then t.walk place.dropLast cs
      else t.walk (place ++ [c]) cs
  | _ => none

/-- The place of the directory that a path leads to, from the root or from the working directory.
This is the working directory itself if the path is empty. -/
def directory? (t : FileTree) (path : String) : Option (List String) :=
  t.walk (startOf t.workingDirectory path) (components path)

/-- What a directory contains under a name. -/
def entryIn? (t : FileTree) (dir name : String) : Option Entry :=
  (t.directory? dir).bind fun place => t.at? (place ++ [name])

/-- **A path that ends in a name** leads to what has this name in the directory that the rest of
the path leads to.

**Proof sketch.** Induction on the rest of the path.  Both sides go on from the same place. -/
lemma follow_name (hname : Path.IsName name) (place cs : List String) :
    t.follow place (cs ++ [name]) = .ok e ↔
      ((t.walk place cs).bind fun p => t.at? (p ++ [name])) = some e := by
  induction cs generalizing place with
  | nil =>
    rw [List.nil_append, follow, walk]
    cases t.at? place with
    | none => simp
    | some entry =>
      cases entry with
      | file bytes => simp
      | directory =>
        simp only [hname.not_stay, hname.ne_up, follow, Option.bind_some]
        cases t.at? (place ++ [name]) <;> simp
  | cons c cs ih =>
    rw [List.cons_append, follow, walk]
    cases t.at? place with
    | none => simp
    | some entry =>
      cases entry with
      | file bytes => simp
      | directory =>
        dsimp only
        split
        · exact ih place
        · split <;> exact ih _

/-- A slash at the end of the path of a directory changes nothing. -/
lemma walk_slash (place cs : List String) : t.walk place (cs ++ [""]) = t.walk place cs := by
  induction cs generalizing place with
  | nil =>
    rw [List.nil_append, walk, walk]
    cases hplace : t.at? place with
    | none => rfl
    | some entry =>
      cases entry with
      | file bytes => rfl
      | directory => simp [isStay, walk, hplace]
  | cons c cs ih =>
    rw [List.cons_append, walk, walk]
    simp only [ih]

/-- The components of a path into a directory are those of the path of the directory and the
name. -/
lemma components_join (dir : String) (hname : Path.IsName name) :
    ∃ cs, components (Path.join dir name) = cs ++ [name] ∧
      (components dir = cs ∨ components dir = cs ++ [""]) := by
  have hsingle : name.toList.splitOn '/' = [name.toList] :=
    List.splitOn_eq_singleton hname.slash_notMem
  rcases Path.join_cases dir hname.slash_notMem with ⟨rfl, hjoin⟩ | ⟨cs, hdir, hjoin⟩
  · exact ⟨[], by simp [components, hjoin, hsingle], .inr rfl⟩
  · refine ⟨(cs.splitOn '/').map String.ofList, ?_, ?_⟩
    · simp [components, hjoin, List.splitOn_append_cons_self, hsingle]
    · rcases hdir with hdir | ⟨hdir, -⟩
      · exact .inr (by simp [components, hdir, List.splitOn_append_cons_self])
      · exact .inl (by rw [components, hdir])

/-- Where a joined path starts is told by the directory. -/
lemma isAbsolute_join (dir : String) (hname : Path.IsName name) :
    Path.isAbsolute (Path.join dir name) = Path.isAbsolute dir := by
  rcases Path.join_cases dir hname.slash_notMem with ⟨rfl, hjoin⟩ | ⟨cs, hdir, hjoin⟩
  · rw [hjoin, Path.isAbsolute_eq_false hname.slash_notMem]
    rfl
  · rw [Path.isAbsolute, Path.isAbsolute, hjoin]
    rcases hdir with hdir | ⟨hdir, hne⟩
    · rw [hdir]
      cases cs <;> rfl
    · rw [hdir, List.head?_append_of_ne_nil _ hne]

/-- **A path into a directory** leads to what the directory contains. -/
lemma view_join (dir : String) (hname : Path.IsName name) :
    t.view (Path.join dir name) = .ok e ↔ t.entryIn? dir name = some e := by
  obtain ⟨cs, hcomponents, hdir⟩ := components_join dir hname
  have hwalk (place : List String) : t.walk place (components dir) = t.walk place cs := by
    rcases hdir with hdir | hdir
    · rw [hdir]
    · rw [hdir, walk_slash]
  have hstart : startOf t.workingDirectory (Path.join dir name) =
      startOf t.workingDirectory dir := by
    rw [startOf, isAbsolute_join dir hname, startOf]
  have hne : (Path.join dir name).isEmpty = false := by
    rw [String.isEmpty_eq_false_iff, ← String.toList_inj.ne]
    rcases Path.join_cases dir hname.slash_notMem with ⟨-, hjoin⟩ | ⟨cs, -, hjoin⟩
    · simpa [hjoin] using hname.ne_empty
    · simp [hjoin]
  rw [view, hne, entryIn?, directory?, hwalk, hcomponents, hstart]
  exact follow_name hname _ cs

end FileTree

/-! ## The libraries in a directory -/

/-- The libraries in memory are those that a directory contains: files that have the name of a
library and the extension of program files, and bytes that are the text. -/
def MemoryLibraries.Mirrors (m : MemoryLibraries) (t : FileTree) (d : LibraryDir) : Prop :=
  ∀ name text, m.libraries.lookup name = some text ↔
    isIdentifier name = true ∧ ∃ bytes, t.entryIn? d.path (libraryFile name) = some (.file bytes) ∧
      String.fromUTF8? bytes = some text

/-- The text of an entry, if it is a file that has one. -/
def Entry.text? : Entry → Option String
  | directory => none
  | file bytes => String.fromUTF8? bytes

/-- The text of a file is what its bytes encode. -/
lemma Entry.text?_eq_some {e : Entry} {text : String} :
    e.text? = some text ↔ ∃ bytes, e = .file bytes ∧ String.fromUTF8? bytes = some text := by
  cases e <;> simp [text?]

/-- The names of files in a tree, each without as many characters as the extension of program files
has with its point. -/
def FileTree.stems (t : FileTree) : List String :=
  t.entries.filterMap fun e => e.1.getLast?.map fun file =>
    String.ofList (file.toList.take (file.toList.length - (sourceExtension.length + 1)))

/-- A library file that is there has its name among the stems. -/
lemma mem_stems {t : FileTree} {name : String} {place : List String} {bytes : ByteArray}
    (h : t.at? (place ++ [libraryFile name]) = some (.file bytes)) : name ∈ t.stems := by
  have hcut : (libraryFile name).toList.take
      ((libraryFile name).toList.length - (sourceExtension.length + 1)) = name.toList := by
    have hextension : sourceExtension.length = 4 := by decide
    simp [toList_libraryFile, hextension]
  rw [FileTree.at?] at h
  cases hfind : t.entries.find? (·.1 = place ++ [libraryFile name]) with
  | none => rw [hfind] at h; simp at h
  | some e =>
    have hplace : e.1 = place ++ [libraryFile name] := by simpa using List.find?_some hfind
    refine List.mem_filterMap.2 ⟨e, List.mem_of_find?_eq_some hfind, ?_⟩
    rw [hplace, List.getLast?_concat, Option.map_some, hcut, String.ofList_toList]

namespace LibraryDir

/-- The text of a library in a directory. -/
def text? (d : LibraryDir) (t : FileTree) (name : String) : Option String :=
  if isIdentifier name then (t.entryIn? d.path (libraryFile name)).bind Entry.text? else none

/-- The text of a library is that of its file in the directory. -/
lemma text?_eq_some {d : LibraryDir} {t : FileTree} {name text : String} :
    d.text? t name = some text ↔
      isIdentifier name = true ∧
        ∃ bytes, t.entryIn? d.path (libraryFile name) = some (.file bytes) ∧
          String.fromUTF8? bytes = some text := by
  simp only [text?, Option.ite_none_right_eq_some, Option.bind_eq_some_iff, Entry.text?_eq_some]
  constructor
  · rintro ⟨hname, _, hentry, bytes, rfl, htext⟩
    exact ⟨hname, bytes, hentry, htext⟩
  · rintro ⟨hname, bytes, hentry, htext⟩
    exact ⟨hname, _, hentry, bytes, rfl, htext⟩

/-- The libraries in a directory, held in memory. -/
def snapshot (d : LibraryDir) (t : FileTree) : MemoryLibraries :=
  ⟨t.stems.filterMap fun name => (d.text? t name).map (name, ·)⟩

/-- Looking up in a list of pairs made from keys. -/
lemma lookup_filterMap {α β : Type} [BEq α] [LawfulBEq α] (f : α → Option β) (a : α) (as : List α) :
    (as.filterMap fun a => (f a).map (a, ·)).lookup a = if a ∈ as then f a else none := by
  induction as with
  | nil => rfl
  | cons b bs ih =>
    by_cases hab : a = b
    · subst hab
      cases ha : f a with
      | none => simpa [List.filterMap_cons, ha] using ih
      | some v => simp [ha]
    · have hbeq : (a == b) = false := beq_eq_false_iff_ne.2 hab
      cases hb : f b with
      | none => simpa [List.filterMap_cons, hb, hab] using ih
      | some v => simpa [hb, hab, hbeq, List.lookup_cons] using ih

/-- **Which libraries are held in memory**: all those that the directory contains. -/
lemma mirrors_snapshot (d : LibraryDir) (t : FileTree) : (d.snapshot t).Mirrors t d := by
  intro name text
  rw [snapshot, lookup_filterMap, ← text?_eq_some, Option.ite_none_right_eq_some,
    and_iff_right_iff_imp]
  intro htext
  obtain ⟨-, bytes, hentry, -⟩ := text?_eq_some.1 htext
  obtain ⟨place, -, hfile⟩ := Option.bind_eq_some_iff.1 hentry
  exact mem_stems hfile

end LibraryDir

end Idyl
