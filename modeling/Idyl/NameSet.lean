/-!
# Sets of names

A set of names is kept as a list in increasing order, so two sets with the same members are
equal and a set is listed in one way only.  Names are ordered by the code points of their
characters.

## Main definitions

* `Idyl.NameSet`, `Idyl.NameSet.insert`, `Idyl.NameSet.ofList` — sets and how they are made.

## Main results

* `Idyl.NameSet.mem_insert`, `Idyl.NameSet.mem_ofList` — the members of a set.
-/

set_option autoImplicit false

namespace Idyl

/-- A name put into its place in an increasing list, unless it is there. -/
def insertName (n : String) : List String → List String
  | [] => [n]
  | m :: ms => if n < m then n :: m :: ms else if n = m then m :: ms else m :: insertName n ms

/-- A name that is put into its place joins those that are there. -/
theorem mem_insertName {n m : String} {ms : List String} :
    m ∈ insertName n ms ↔ m = n ∨ m ∈ ms := by
  induction ms with
  | nil => simp [insertName]
  | cons k ks ih =>
    unfold insertName
    split
    · simp
    · split <;> grind

/-- An increasing list stays increasing. -/
theorem pairwise_insertName {n : String} {ms : List String} (h : ms.Pairwise (· < ·)) :
    (insertName n ms).Pairwise (· < ·) := by
  induction ms with
  | nil => simp [insertName]
  | cons k ks ih =>
    obtain ⟨hk, hks⟩ := List.pairwise_cons.1 h
    unfold insertName
    split
    · next hlt =>
      refine List.pairwise_cons.2 ⟨fun m hm => ?_, h⟩
      rcases List.mem_cons.1 hm with rfl | hm
      · exact hlt
      · exact String.lt_trans hlt (hk m hm)
    · split
      · exact h
      · next hlt hne =>
        refine List.pairwise_cons.2 ⟨fun m hm => ?_, ih hks⟩
        rcases mem_insertName.1 hm with rfl | hm
        · exact Std.lt_of_le_of_ne (String.not_lt.1 hlt) (Ne.symm hne)
        · exact hk m hm

/-- A set of names, in increasing order. -/
structure NameSet where
  names : List String
  ordered : names.Pairwise (· < ·)

namespace NameSet

/-- The set without members. -/
def empty : NameSet := ⟨[], List.Pairwise.nil⟩

instance : Inhabited NameSet := ⟨empty⟩

instance : Membership String NameSet := ⟨fun s n => n ∈ s.names⟩

instance (n : String) (s : NameSet) : Decidable (n ∈ s) :=
  inferInstanceAs (Decidable (n ∈ s.names))

/-- The set with one more member. -/
def insert (s : NameSet) (n : String) : NameSet :=
  ⟨insertName n s.names, pairwise_insertName s.ordered⟩

/-- The set of the names in a list. -/
def ofList (ns : List String) : NameSet := ns.foldl insert empty

/-- The number of members. -/
def size (s : NameSet) : Nat := s.names.length

/-- The members after one was added. -/
@[simp] theorem mem_insert {s : NameSet} {n m : String} : m ∈ s.insert n ↔ m = n ∨ m ∈ s :=
  mem_insertName

/-- The members of the set of a list are those of the list. -/
@[simp] theorem mem_ofList {ns : List String} {m : String} : m ∈ ofList ns ↔ m ∈ ns := by
  have key : ∀ (ns : List String) (s : NameSet), m ∈ ns.foldl insert s ↔ m ∈ s ∨ m ∈ ns := by
    intro ns
    induction ns with
    | nil => intro s; simp
    | cons k ks ih => intro s; rw [List.foldl_cons, ih, mem_insert, List.mem_cons]; grind
  have h := key ns empty
  have hempty : ¬ m ∈ empty := List.not_mem_nil
  simpa [ofList, hempty] using h

end NameSet

end Idyl
