import Mathlib
import Idyl.Proofs.Typing.Judgement
import Idyl.Typing.Check

/-!
# The check accepts exactly the well-typed programs

The check of `Idyl.Typing.Check` goes on after a fault and gives partial types, so its answer for a
phrase at fault means little.  Where it finds nothing, its answer is the one that the typing rules
give, and where the rules apply it finds nothing.

A scope of the check and an environment of the rules are related by `Knows`: what the scope finds
under a name is what the environment holds of that name.  Declarations keep the relation because
they bind only names that are not known yet.

## Main definitions

* `Idyl.Typing.Knows` — a scope finds what an environment holds.
* `Idyl.Typing.Callable.globals` — the names that the check looks calls up in.

## Main results

* `Idyl.Typing.checkExpr_sound`, `Idyl.Typing.checkExpr_complete` — an expression without findings
  is well formed with the type found, and the other way round.
* `Idyl.Typing.checkStmts_sound`, `Idyl.Typing.checkStmts_complete` — the same for statements.
* `Idyl.Typing.checkProgram_eq_nil_iff_wellTyped` — the check finds no error exactly in well-typed
  programs.
-/

set_option autoImplicit false

namespace Idyl.Typing

/-! ## Values -/

/-- The check accepts the values that fit. -/
lemma fits_iff {t v : Ty} : Fits t v ↔ t.accepts v = true := by
  constructor
  · rintro (_ | _)
    · simp [Ty.accepts]
    · rfl
  · intro h
    rcases (by simpa [Ty.accepts] using h : t = v ∨ t = .float ∧ v = .int) with rfl | ⟨rfl, rfl⟩
    · exact .same t
    · exact .widened

/-- The check takes the types of numbers for such. -/
lemma numeric_iff {t : Ty} : Numeric t ↔ t.isNumeric = true := by
  constructor
  · rintro (_ | _) <;> rfl
  · intro h
    cases t <;> first | exact .int | exact .float | simp [Ty.isNumeric] at h

/-- An operand is known to be a number if it has the type of one. -/
lemma isNumber_eq_true_iff {t : Option Ty} : isNumber t = true ↔ ∃ u, t = some u ∧ Numeric u := by
  cases t <;> simp [isNumber, numeric_iff]

/-- The rule for the result of an arithmetic operator, as the check computes it. -/
lemma promoted_iff {l r t : Ty} :
    Promoted l r t ↔ Numeric l ∧ Numeric r ∧ arithmeticType (some l) (some r) = some t := by
  constructor
  · rintro (_ | ⟨h⟩ | ⟨h⟩)
    · exact ⟨.int, .int, rfl⟩
    · exact ⟨.float, h, by simp [arithmeticType, numeric_iff.1 h, numeric_iff.1 .float]⟩
    · exact ⟨h, .float, by simp [arithmeticType, numeric_iff.1 h, numeric_iff.1 .float]⟩
  · rintro ⟨hl, hr, h⟩
    simp only [arithmeticType, numeric_iff.1 hl, numeric_iff.1 hr, Bool.and_self, if_true,
      Option.some.injEq] at h
    subst h
    cases hl with
    | float => exact .floatLeft hr
    | int =>
      cases hr with
      | int => exact .ints
      | float => exact .floatRight .int

/-- The operators of arithmetic. -/
lemma mem_arithmetic_iff {op : BinaryOp} :
    op ∈ [.add, .sub, .mul, .div] ↔ op.isArithmetic = true := by
  cases op <;> decide

/-- The operators of comparisons. -/
lemma mem_comparison_iff {op : BinaryOp} :
    op ∈ [.eq, .ne, .lt, .le, .gt, .ge] ↔ op.isComparison = true := by
  cases op <;> decide

/-- The operators that are neither. -/
lemma mem_logical_iff {op : BinaryOp} :
    op ∈ [.and, .or] ↔ op.isComparison = false ∧ op.isArithmetic = false := by
  cases op <;> decide

/-- The check gives literals the types that they denote. -/
lemma denotes_iff {value : Literal} {t : Ty} : Denotes value t ↔ value.type = t := by
  have hsingle : ∀ text : String, text.length = 1 ↔ ∃ c, text = String.singleton c := by
    intro text
    rw [← String.length_toList, List.length_eq_one_iff]
    exact exists_congr fun c => by rw [← String.toList_inj, String.toList_singleton]
  constructor
  · rintro (_ | _ | _ | _ | c | ⟨text, h⟩) <;> try rfl
    · exact if_pos ((hsingle _).2 ⟨c, rfl⟩)
    · exact if_neg fun hlength => (hsingle text).1 hlength |>.elim h
  · rintro rfl
    cases value with
    | int n => exact .int n
    | float x => exact .float x
    | bool b => exact .bool b
    | char c => exact .char c
    | string text =>
      by_cases hlength : text.length = 1
      · obtain ⟨c, rfl⟩ := (hsingle text).1 hlength
        rw [Literal.type, if_pos hlength]
        exact .single c
      · rw [Literal.type, if_neg hlength]
        exact .string text fun c hc => hlength ((hsingle text).2 ⟨c, hc⟩)

/-! ## Names that can be called -/

/-- The names that the check looks calls up in. -/
def Callable.globals (g : Callable) : Globals := ⟨.ofList g.functions, g.libraries⟩

/-- A method is found by its name. -/
lemma consoleMethod_ofName?_eq_some_iff {n : String} {m : ConsoleMethod} :
    ConsoleMethod.ofName? n = some m ↔ m.name = n := by
  constructor
  · intro h
    simpa using List.find?_some h
  · rintro rfl
    cases m <;> decide

/-- A conversion is found by its name. -/
lemma conversion_ofName?_eq_some_iff {n : String} {c : Conversion} :
    Conversion.ofName? n = some c ↔ c.name = n := by
  constructor
  · intro h
    simpa using List.find?_some h
  · rintro rfl
    cases c <;> decide

/-- The methods that are not `write` are those that read a value. -/
lemma enters_iff {n : String} {t : Ty} :
    Enters n t ↔ ∃ m, ConsoleMethod.ofName? n = some m ∧ m ≠ .write ∧ m.returns = t := by
  simp only [consoleMethod_ofName?_eq_some_iff]
  constructor
  · rintro (_ | _ | _)
    · exact ⟨.getInt, rfl, by decide, rfl⟩
    · exact ⟨.getFloat, rfl, by decide, rfl⟩
    · exact ⟨.getString, rfl, by decide, rfl⟩
  · rintro ⟨m, rfl, hm, rfl⟩
    cases m with
    | getInt => exact .int
    | getFloat => exact .float
    | getString => exact .string
    | write => exact absurd rfl hm

/-- The conversions are those of the rules. -/
lemma converts_iff {n : String} {t : Ty} :
    Converts n t ↔ ∃ c, Conversion.ofName? n = some c ∧ c.returns = t := by
  simp only [conversion_ofName?_eq_some_iff]
  constructor
  · rintro (_ | _ | _)
    · exact ⟨.toText, rfl, rfl⟩
    · exact ⟨.toInt, rfl, rfl⟩
    · exact ⟨.toFloat, rfl, rfl⟩
  · rintro ⟨c, rfl, rfl⟩
    cases c with
    | toText => exact .string
    | toInt => exact .int
    | toFloat => exact .float

/-- Where the rules know no conversion, none is found. -/
lemma conversion_ofName?_eq_none_iff {n : String} :
    Conversion.ofName? n = none ↔ ∀ t, ¬Converts n t := by
  simp only [converts_iff, not_exists, not_and, Option.eq_none_iff_forall_ne_some]
  exact ⟨fun h _ c hc => absurd hc (h c), fun h c hc => h c.returns c hc rfl⟩

/-- All methods but `write` take no argument. -/
lemma arity?_of_ne_write {m : ConsoleMethod} (h : m ≠ .write) : m.arity? = some 0 := by
  cases m <;> first | rfl | exact absurd rfl h

/-! ## Scopes and environments -/

/-- What is found after a variable was added. -/
lemma typeOf?_bind (scope : Scope) (b : Binding) (name : String) :
    (scope.bind b).typeOf? name = if b.name = name then some b.type else scope.typeOf? name := by
  rw [Scope.typeOf?, Scope.lookup_bind]
  split <;> rfl

/-- A name is new if it is not the last one and was new before. -/
lemma fresh_cons {name : String} {b : Binding} {Γ : List Binding} :
    Fresh name (b :: Γ) ↔ b.name ≠ name ∧ Fresh name Γ := by
  obtain ⟨other, t⟩ := b
  simp only [Fresh, List.mem_cons, Binding.mk.injEq, not_or, not_and, forall_and]
  exact and_congr_left' ⟨fun h heq => h t heq.symm rfl, fun h _ heq => absurd heq.symm h⟩

/-- A scope finds under each name what the environment holds of that name. -/
def Knows (scope : Scope) (Γ : List Binding) : Prop :=
  ∀ name t, scope.typeOf? name = some t ↔ ⟨name, t⟩ ∈ Γ

namespace Knows

variable {scope : Scope} {Γ : List Binding} {name : String} {t : Ty}

/-- At first nothing is known. -/
lemma empty : Knows {} [] := fun name t => by simp [Scope.typeOf?, Scope.lookup]

/-- The names that are not found are the new ones. -/
lemma contains_eq_false_iff (h : Knows scope Γ) : scope.contains name = false ↔ Fresh name Γ := by
  have hfind : scope.contains name = (scope.typeOf? name).isSome := by
    simp [Scope.contains, Scope.typeOf?]
  rw [hfind, Option.isSome_eq_false_iff, Option.isNone_iff_eq_none,
    Option.eq_none_iff_forall_ne_some]
  exact forall_congr' fun t => not_congr (h name t)

/-- A variable whose name is not known can be added on both sides. -/
lemma bind (h : Knows scope Γ) (hfresh : Fresh name Γ) :
    Knows (scope.bind ⟨name, t⟩) (⟨name, t⟩ :: Γ) := by
  intro y u
  rw [List.mem_cons, ← h y u, typeOf?_bind]
  by_cases hy : name = y
  · subst hy
    have hnone : scope.typeOf? name ≠ some u := fun hu => hfresh u ((h name u).1 hu)
    simp [hnone, eq_comm]
  · simp [hy, Ne.symm hy]

/-- Only the members of an environment matter. -/
lemma congr (h : Knows scope Γ) {Γ' : List Binding} (hΓ : ∀ b, b ∈ Γ ↔ b ∈ Γ') : Knows scope Γ' :=
  fun name t => (h name t).trans (hΓ _)

end Knows

/-! ## Expressions -/

section Expressions

variable {g : Callable} {scope : Scope} {Γ : List Binding}

/-- A value is accepted if it fits, or has no type. -/
lemma checkFits_eq_nil_iff {target : Ty} {name : String} {value : Option Ty} {s : Span} :
    checkFits target name value s = [] ↔ ∀ u ∈ value, Fits target u := by
  cases value <;> simp [checkFits, fits_iff]

/-- A call of a method that is accepted is well formed. -/
lemma checkMethod_sound {module method : String} {args : List Expr} {s₁ s₂ s₃ : Span}
    (h : (checkMethod g.globals module method args.length s₃).findings = [])
    (hargs : Arguments g Γ args) :
    Types g Γ (.call (.member (.var module s₁) method s₂) args s₃)
      (checkMethod g.globals module method args.length s₃).type := by
  unfold checkMethod at h ⊢
  by_cases hmodule : module = consoleModule
  · rw [if_pos hmodule] at h ⊢
    subst hmodule
    cases hm : ConsoleMethod.ofName? method with
    | none => simp [hm] at h
    | some m =>
      obtain rfl := consoleMethod_ofName?_eq_some_iff.1 hm
      by_cases hwrite : m = .write
      · subst hwrite
        exact .write hargs
      · have hcount : 0 = args.length := by simpa [hm, arity?_of_ne_write hwrite] using h
        obtain rfl := List.length_eq_zero_iff.1 hcount.symm
        exact .enter (enters_iff.2 ⟨m, hm, hwrite, rfl⟩)
  · rw [if_neg hmodule] at h ⊢
    by_cases hlibrary : module ∈ g.globals.libraries
    · rw [if_pos hlibrary]
      exact .library hargs hmodule hlibrary
    · simp [hlibrary] at h

/-- A call of a function that is accepted is well formed. -/
lemma checkNamed_sound {name : String} {args : List Expr} {s₁ s₂ : Span}
    (h : (checkNamed g.globals name args.length s₂).findings = [])
    (hargs : Arguments g Γ args) :
    Types g Γ (.call (.var name s₁) args s₂) (checkNamed g.globals name args.length s₂).type := by
  unfold checkNamed at h ⊢
  cases hc : Conversion.ofName? name with
  | some c =>
    by_cases hcount : args.length = 1
    · obtain ⟨arg, rfl⟩ := List.length_eq_one_iff.1 hcount
      cases hargs with
      | cons harg _ => exact .conversion (converts_iff.2 ⟨c, hc, rfl⟩) harg
    · simp [hc, hcount] at h
  | none =>
    by_cases hname : name ∈ g.globals.functions
    · simp only [hname, if_true]
      exact .function hargs (conversion_ofName?_eq_none_iff.1 hc) (NameSet.mem_ofList.1 hname)
    · simp [hc, hname] at h

/-- A binary operator that is accepted is well formed. -/
lemma checkBinary_sound {op : BinaryOp} {left right : Expr} {l r : Option Ty} {s : Span}
    (h : (checkBinary op l r s).findings = []) (hleft : Types g Γ left l)
    (hright : Types g Γ right r) :
    Types g Γ (.binary op left right s) (checkBinary op l r s).type := by
  by_cases hcomparison : op.isComparison
  · simp only [checkBinary, hcomparison, if_true]
    exact .comparison (mem_comparison_iff.2 hcomparison) hleft hright
  by_cases harithmetic : op.isArithmetic
  · simp only [checkBinary, hcomparison, harithmetic, if_true, Bool.false_eq_true, if_false] at h ⊢
    obtain ⟨hl, hr⟩ : isNumber l = true ∧ isNumber r = true := by
      by_contra hno
      simp [hno] at h
    obtain ⟨u, rfl, hu⟩ := isNumber_eq_true_iff.1 hl
    obtain ⟨v, rfl, hv⟩ := isNumber_eq_true_iff.1 hr
    have hsome : ∃ t, arithmeticType (some u) (some v) = some t := by
      simp [arithmeticType, numeric_iff.1 hu, numeric_iff.1 hv]
    obtain ⟨t, ht⟩ := hsome
    rw [ht]
    exact .arithmetic (mem_arithmetic_iff.2 harithmetic) hleft hright
      (promoted_iff.2 ⟨hu, hv, ht⟩)
  · simp only [checkBinary, hcomparison, harithmetic, Bool.false_eq_true, if_false]
    refine .logical (mem_logical_iff.2 ⟨?_, ?_⟩) hleft hright
    · exact Bool.eq_false_iff.2 hcomparison
    · exact Bool.eq_false_iff.2 harithmetic

/-- A unary operator that is accepted is well formed. -/
lemma checkUnary_sound {op : UnaryOp} {operand : Expr} {t : Option Ty} {s : Span}
    (h : checkUnary op t s = []) (ht : Types g Γ operand t) :
    Types g Γ (.unary op operand s) t := by
  cases op with
  | neg =>
    obtain ⟨u, rfl, hu⟩ : ∃ u, t = some u ∧ Numeric u := by
      rw [← isNumber_eq_true_iff]
      by_contra hno
      simp [checkUnary, hno] at h
    exact .neg ht hu
  | not =>
    obtain rfl : t = some .bool := by
      by_contra hno
      simp [checkUnary, hno] at h
    exact .not ht

mutual

/-- **What the check accepts is well formed**, with the type that the check gives.

**Proof sketch.** By recursion on the expression, one rule a form.  A call passes only if what is
called is a name or a member of a module; all other calls end in a finding. -/
lemma checkExpr_sound (hk : Knows scope Γ) : ∀ e : Expr,
    (checkExpr g.globals scope e).findings = [] →
      Types g Γ e (checkExpr g.globals scope e).type
  | .lit value _, _ => .lit (denotes_iff.2 rfl)
  | .var name s, h => by
    rw [checkExpr] at h ⊢
    cases ht : scope.typeOf? name with
    | some t => exact .var ((hk name t).1 ht)
    | none => simp [ht] at h
  | .assign name value s, h => by
    rw [checkExpr] at h ⊢
    cases ht : scope.typeOf? name with
    | some t =>
      obtain ⟨hvalue, hfits⟩ : _ ∧ _ := List.append_eq_nil_iff.1 (by simpa only [ht] using h)
      exact .assign ((hk name t).1 ht) (checkExpr_sound hk value hvalue)
        (checkFits_eq_nil_iff.1 hfits)
    | none => simp [ht] at h
  | .binary op left right s, h => by
    rw [checkExpr] at h ⊢
    obtain ⟨hlr, hop⟩ := List.append_eq_nil_iff.1 h
    obtain ⟨hl, hr⟩ := List.append_eq_nil_iff.1 hlr
    exact checkBinary_sound hop (checkExpr_sound hk left hl) (checkExpr_sound hk right hr)
  | .unary op operand s, h => by
    rw [checkExpr] at h ⊢
    obtain ⟨ho, hop⟩ := List.append_eq_nil_iff.1 h
    exact checkUnary_sound hop (checkExpr_sound hk operand ho)
  | .call (.member (.var module s₁) method s₂) args s₃, h => by
    rw [checkExpr] at h ⊢
    obtain ⟨hargs, hcall⟩ := List.append_eq_nil_iff.1 h
    exact checkMethod_sound hcall (checkArgs_sound hk args hargs)
  | .call (.var name s₁) args s₂, h => by
    rw [checkExpr] at h ⊢
    obtain ⟨hargs, hcall⟩ := List.append_eq_nil_iff.1 h
    exact checkNamed_sound hcall (checkArgs_sound hk args hargs)
  | .call (.member (.lit ..) ..) .., h | .call (.member (.assign ..) ..) .., h
  | .call (.member (.binary ..) ..) .., h | .call (.member (.unary ..) ..) .., h
  | .call (.member (.call ..) ..) .., h | .call (.member (.member ..) ..) .., h
  | .call (.lit ..) .., h | .call (.assign ..) .., h | .call (.binary ..) .., h
  | .call (.unary ..) .., h | .call (.call ..) .., h => by simp [checkExpr] at h
  | .member object name s, h => by
    rw [checkExpr] at h ⊢
    have hobject := checkExpr_sound hk object h
    by_cases hlength : (checkExpr g.globals scope object).type = some .string ∧ name = "length"
    · obtain ⟨ht, rfl⟩ := hlength
      rw [ht] at hobject
      simpa [ht] using Types.stringLength hobject
    · simpa [hlength] using Types.member hobject hlength

/-- **Arguments that the check accepts are well formed.** -/
lemma checkArgs_sound (hk : Knows scope Γ) : ∀ es : List Expr,
    checkArgs g.globals scope es = [] → Arguments g Γ es
  | [], _ => .nil
  | e :: es, h => by
    rw [checkArgs] at h
    obtain ⟨he, hes⟩ := List.append_eq_nil_iff.1 h
    exact .cons (checkExpr_sound hk e he) (checkArgs_sound hk es hes)

end

/-- Arithmetic on numbers is accepted, with the type of the rules. -/
lemma checkBinary_arithmetic {op : BinaryOp} {l r t : Ty} {s : Span}
    (hop : op ∈ [.add, .sub, .mul, .div]) (ht : Promoted l r t) :
    checkBinary op (some l) (some r) s = ⟨some t, []⟩ := by
  obtain ⟨hl, hr, ht⟩ := promoted_iff.1 ht
  have hcomparison : op.isComparison = false := by
    cases op <;> first | rfl | simp at hop
  have harithmetic := mem_arithmetic_iff.1 hop
  have hnumbers : isNumber (some l) = true ∧ isNumber (some r) = true :=
    ⟨isNumber_eq_true_iff.2 ⟨l, rfl, hl⟩, isNumber_eq_true_iff.2 ⟨r, rfl, hr⟩⟩
  simp [checkBinary, hcomparison, harithmetic, ht, hnumbers]

mutual

/-- **What the rules derive the check accepts**, with the same type.

**Proof sketch.** By recursion on the derivation: each rule settles the branch that the check
takes, and its premises leave no finding in the parts. -/
lemma checkExpr_complete (hk : Knows scope Γ) : ∀ {e : Expr} {t : Option Ty},
    Types g Γ e t → checkExpr g.globals scope e = ⟨t, []⟩
  | _, _, .lit h => by rw [checkExpr, denotes_iff.1 h]
  | _, _, .var h => by rw [checkExpr, (hk _ _).2 h]
  | _, _, .assign htarget hvalue hfits => by
    simp only [checkExpr, checkExpr_complete hk hvalue, (hk _ _).2 htarget,
      checkFits_eq_nil_iff.2 hfits, List.append_nil]
  | _, _, .arithmetic hop hleft hright ht => by
    simp only [checkExpr, checkExpr_complete hk hleft, checkExpr_complete hk hright,
      checkBinary_arithmetic hop ht, List.append_nil]
  | _, _, .comparison hop hleft hright => by
    simp [checkExpr, checkExpr_complete hk hleft, checkExpr_complete hk hright, checkBinary,
      mem_comparison_iff.1 hop]
  | _, _, .logical hop hleft hright => by
    simp [checkExpr, checkExpr_complete hk hleft, checkExpr_complete hk hright, checkBinary,
      mem_logical_iff.1 hop]
  | _, _, .not h => by
    simp [checkExpr, checkExpr_complete hk h, checkUnary]
  | _, _, .neg h ht => by
    simp [checkExpr, checkExpr_complete hk h, checkUnary, isNumber, numeric_iff.1 ht]
  | _, _, .stringLength h => by simp [checkExpr, checkExpr_complete hk h]
  | _, _, .member h hother => by
    simp [checkExpr, checkExpr_complete hk h, hother]
  | _, _, .enter h => by
    obtain ⟨m, hm, hwrite, rfl⟩ := enters_iff.1 h
    simp [checkExpr, checkArgs, checkMethod, consoleModule, hm, arity?_of_ne_write hwrite]
  | _, _, .write hargs => by
    have hm : ConsoleMethod.ofName? "write" = some .write := rfl
    simp [checkExpr, checkArgs_complete hk hargs, checkMethod, consoleModule, hm,
      ConsoleMethod.arity?, ConsoleMethod.returns]
  | _, _, .library hargs hother h => by
    have hlibrary : _ ∈ g.globals.libraries := h
    simp [checkExpr, checkArgs_complete hk hargs, checkMethod, consoleModule, hother, hlibrary]
  | _, _, .conversion h harg => by
    obtain ⟨c, hc, rfl⟩ := converts_iff.1 h
    simp [checkExpr, checkArgs, checkExpr_complete hk harg, checkNamed, hc]
  | _, _, .function hargs hother h => by
    have hfunction : _ ∈ g.globals.functions := NameSet.mem_ofList.2 h
    simp [checkExpr, checkArgs_complete hk hargs, checkNamed,
      conversion_ofName?_eq_none_iff.2 hother, hfunction]

/-- **Well-formed arguments are accepted.** -/
lemma checkArgs_complete (hk : Knows scope Γ) : ∀ {es : List Expr},
    Arguments g Γ es → checkArgs g.globals scope es = []
  | _, .nil => rfl
  | _, .cons h hs => by
    rw [checkArgs, checkExpr_complete hk h, checkArgs_complete hk hs, List.append_nil]

end

end Expressions

/-! ## Statements -/

section Statements

variable {g : Callable}

/-- The names that no variable can have are those of the rules. -/
lemma reserved_iff {name : String} : Reserved name ↔ name ∈ reservedNames := by
  constructor
  · rintro (_ | _ | _ | _ | _ | _ | _) <;> decide
  · intro h
    simp only [reservedNames, List.mem_cons, List.not_mem_nil, or_false] at h
    obtain rfl | rfl | rfl | rfl | rfl | rfl | rfl := h
    exacts [.main, .use, .ifWord, .elseWord, .whileWord, .returnWord, .console]

/-- The names that a variable can have. -/
lemma isReserved_eq_false_iff {name : String} : isReserved name = false ↔ ¬Reserved name := by
  simp [isReserved, reserved_iff]

/-- What can be said of an accepted declaration: its name is neither reserved nor known, and the
name is bound if the first value has a type, which then fits. -/
lemma checkDeclare_cases {globals : Globals} {scope : Scope} {type : Ty} {name : String}
    {init : Expr} {s : Span}
    (h : (checkDeclare globals scope type name init s).findings = []) :
    isReserved name = false ∧ scope.contains name = false ∧
      (checkExpr globals scope init).findings = [] ∧
      ((checkExpr globals scope init).type = none ∧
          (checkDeclare globals scope type name init s).scope = scope ∨
        ∃ v, (checkExpr globals scope init).type = some v ∧ type.accepts v = true ∧
          (checkDeclare globals scope type name init s).scope = scope.bind ⟨name, type⟩) := by
  unfold checkDeclare at h ⊢
  cases hname : isReserved name with
  | true => simp [hname] at h
  | false =>
    cases hknown : scope.contains name with
    | true => simp [hname, hknown] at h
    | false =>
      cases hv : (checkExpr globals scope init).type with
      | none => simp_all
      | some v => by_cases hfits : type.accepts v <;> simp_all

/-- A declaration that is accepted passes, and makes the same variable known. -/
lemma checkDeclare_sound {scope : Scope} {Γ : List Binding} (hk : Knows scope Γ) {type : Ty}
    {name : String} {init : Expr} {s : Span}
    (h : (checkDeclare g.globals scope type name init s).findings = []) :
    ∃ Γ', Passes g Γ (.declare type name init s) Γ' ∧
      Knows (checkDeclare g.globals scope type name init s).scope Γ' := by
  obtain ⟨hname, hknown, hinit, hcases⟩ := checkDeclare_cases h
  have hname := isReserved_eq_false_iff.1 hname
  have hfresh := hk.contains_eq_false_iff.1 hknown
  have htypes := checkExpr_sound hk init hinit
  rcases hcases with ⟨hv, hscope⟩ | ⟨v, hv, hfits, hscope⟩
  · rw [hv] at htypes
    exact ⟨Γ, .declareUnknown hname hfresh htypes, by rwa [hscope]⟩
  · rw [hv] at htypes
    refine ⟨_, .declare hname hfresh htypes (fits_iff.2 hfits), ?_⟩
    rw [hscope]
    exact hk.bind hfresh

/-- A declaration that passes is accepted. -/
lemma checkDeclare_complete {scope : Scope} {Γ : List Binding} (hk : Knows scope Γ) {type : Ty}
    {name : String} {init : Expr} {s : Span} {v : Option Ty} (hname : ¬Reserved name)
    (hfresh : Fresh name Γ) (hinit : Types g Γ init v) (hfits : ∀ u ∈ v, Fits type u) :
    checkDeclare g.globals scope type name init s =
      ⟨if v.isSome then scope.bind ⟨name, type⟩ else scope, []⟩ := by
  cases v with
  | none =>
    simp [checkDeclare, isReserved_eq_false_iff.2 hname, hk.contains_eq_false_iff.2 hfresh,
      checkExpr_complete hk hinit]
  | some u =>
    simp [checkDeclare, isReserved_eq_false_iff.2 hname, hk.contains_eq_false_iff.2 hfresh,
      checkExpr_complete hk hinit, fits_iff.1 (hfits u rfl)]

mutual

/-- **Statements that the check accepts pass**, and the scope after them knows what is declared
after them.

**Proof sketch.** By recursion on the statement.  The relation between scope and environment is
handed from each part to the next in the order of the text. -/
lemma checkStmt_sound : ∀ {scope : Scope} {Γ : List Binding} (_ : Knows scope Γ) (s : Stmt),
    (checkStmt g.globals scope s).findings = [] →
      ∃ Γ', Passes g Γ s Γ' ∧ Knows (checkStmt g.globals scope s).scope Γ'
  | _, _, hk, .declare .., h => by
    rw [checkStmt] at h ⊢
    exact checkDeclare_sound hk h
  | _, Γ, hk, .eval e _, h => by
    rw [checkStmt] at h ⊢
    exact ⟨Γ, .eval (checkExpr_sound hk e h), hk⟩
  | _, _, hk, .block body _, h => by
    rw [checkStmt] at h ⊢
    obtain ⟨Γ', hbody, hk'⟩ := checkStmts_sound hk body h
    exact ⟨Γ', .block hbody, hk'⟩
  | _, _, hk, .ifThen condition thenBranch _, h => by
    rw [checkStmt] at h ⊢
    obtain ⟨hc, ht⟩ := List.append_eq_nil_iff.1 h
    obtain ⟨Γ', hthen, hk'⟩ := checkStmt_sound hk thenBranch ht
    exact ⟨Γ', .ifThen (checkExpr_sound hk condition hc) hthen, hk'⟩
  | _, _, hk, .ifElse condition thenBranch elseBranch _, h => by
    rw [checkStmt] at h ⊢
    obtain ⟨hct, he⟩ := List.append_eq_nil_iff.1 h
    obtain ⟨hc, ht⟩ := List.append_eq_nil_iff.1 hct
    obtain ⟨Γ₁, hthen, hk₁⟩ := checkStmt_sound hk thenBranch ht
    obtain ⟨Γ₂, helse, hk₂⟩ := checkStmt_sound hk₁ elseBranch he
    exact ⟨Γ₂, .ifElse (checkExpr_sound hk condition hc) hthen helse, hk₂⟩
  | _, _, hk, .while_ condition body _, h => by
    rw [checkStmt] at h ⊢
    obtain ⟨hc, hb⟩ := List.append_eq_nil_iff.1 h
    obtain ⟨Γ', hbody, hk'⟩ := checkStmt_sound hk body hb
    exact ⟨Γ', .while_ (checkExpr_sound hk condition hc) hbody, hk'⟩
  | _, Γ, hk, .return_ none _, h => by
    rw [checkStmt] at h ⊢
    exact ⟨Γ, .returnNone, hk⟩
  | _, Γ, hk, .return_ (some e) _, h => by
    rw [checkStmt] at h ⊢
    exact ⟨Γ, .returnSome (checkExpr_sound hk e h), hk⟩

/-- **Statements that the check accepts pass**, one after the other. -/
lemma checkStmts_sound : ∀ {scope : Scope} {Γ : List Binding} (_ : Knows scope Γ)
    (ss : List Stmt), (checkStmts g.globals scope ss).findings = [] →
      ∃ Γ', PassesAll g Γ ss Γ' ∧ Knows (checkStmts g.globals scope ss).scope Γ'
  | _, Γ, hk, [], _ => ⟨Γ, .nil, hk⟩
  | _, _, hk, s :: ss, h => by
    rw [checkStmts] at h ⊢
    obtain ⟨hs, hss⟩ := List.append_eq_nil_iff.1 h
    obtain ⟨Γ₁, hfirst, hk₁⟩ := checkStmt_sound hk s hs
    obtain ⟨Γ₂, hothers, hk₂⟩ := checkStmts_sound hk₁ ss hss
    exact ⟨Γ₂, .cons hfirst hothers, hk₂⟩

end

mutual

/-- **Statements that pass the check accepts**, and the scope after them knows what is declared
after them. -/
lemma checkStmt_complete : ∀ {scope : Scope} {Γ Γ' : List Binding} {s : Stmt},
    Knows scope Γ → Passes g Γ s Γ' →
      (checkStmt g.globals scope s).findings = [] ∧
        Knows (checkStmt g.globals scope s).scope Γ'
  | _, _, _, _, hk, .declare hname hfresh hinit hfits => by
    rw [checkStmt, checkDeclare_complete hk hname hfresh hinit (by simpa using hfits)]
    exact ⟨rfl, hk.bind hfresh⟩
  | _, _, _, _, hk, .declareUnknown hname hfresh hinit => by
    rw [checkStmt, checkDeclare_complete hk hname hfresh hinit (by simp)]
    exact ⟨rfl, hk⟩
  | _, _, _, _, hk, .eval h => by
    rw [checkStmt, checkExpr_complete hk h]
    exact ⟨rfl, hk⟩
  | _, _, _, _, hk, .block h => by
    rw [checkStmt]
    exact checkStmts_complete hk h
  | _, _, _, _, hk, .ifThen hc ht => by
    obtain ⟨hthen, hk'⟩ := checkStmt_complete hk ht
    simp only [checkStmt, checkExpr_complete hk hc, hthen, List.append_nil]
    exact ⟨trivial, hk'⟩
  | _, _, _, _, hk, .ifElse hc ht he => by
    obtain ⟨hthen, hk₁⟩ := checkStmt_complete hk ht
    obtain ⟨helse, hk₂⟩ := checkStmt_complete hk₁ he
    simp only [checkStmt, checkExpr_complete hk hc, hthen, helse, List.append_nil]
    exact ⟨trivial, hk₂⟩
  | _, _, _, _, hk, .while_ hc hb => by
    obtain ⟨hbody, hk'⟩ := checkStmt_complete hk hb
    simp only [checkStmt, checkExpr_complete hk hc, hbody, List.append_nil]
    exact ⟨trivial, hk'⟩
  | _, _, _, _, hk, .returnNone => by
    rw [checkStmt]
    exact ⟨rfl, hk⟩
  | _, _, _, _, hk, .returnSome h => by
    rw [checkStmt, checkExpr_complete hk h]
    exact ⟨rfl, hk⟩

/-- **Statements that pass are accepted**, one after the other. -/
lemma checkStmts_complete : ∀ {scope : Scope} {Γ Γ' : List Binding} {ss : List Stmt},
    Knows scope Γ → PassesAll g Γ ss Γ' →
      (checkStmts g.globals scope ss).findings = [] ∧
        Knows (checkStmts g.globals scope ss).scope Γ'
  | _, _, _, _, hk, .nil => ⟨rfl, hk⟩
  | _, _, _, _, hk, .cons h hs => by
    obtain ⟨hfirst, hk₁⟩ := checkStmt_complete hk h
    obtain ⟨hothers, hk₂⟩ := checkStmts_complete hk₁ hs
    simp only [checkStmts, hfirst, hothers, List.append_nil]
    exact ⟨trivial, hk₂⟩

end

end Statements

/-! ## Functions and programs -/

/-- Parameters are free of findings exactly if their names are new and different from each other;
the variables known after them are then the parameters and those known before. -/
lemma checkParams_spec : ∀ {scope : Scope} {Γ : List Binding} (_ : Knows scope Γ)
    (ps : List Param),
    ((checkParams scope ps).findings = [] ↔
      (ps.map (·.name)).Nodup ∧ ∀ p ∈ ps, Fresh p.name Γ) ∧
    ((checkParams scope ps).findings = [] →
      Knows (checkParams scope ps).scope (paramBindings ps ++ Γ))
  | _, _, hk, [] => by
    simpa [checkParams, paramBindings] using hk
  | scope, Γ, hk, p :: ps => by
    rw [checkParams]
    cases hp : scope.lookup p.name with
    | some old =>
      have hknown : ¬Fresh p.name Γ := fun hfresh => by
        simpa [Scope.contains, hp] using hk.contains_eq_false_iff.2 hfresh
      simp [Scope.define, hp, hknown]
    | none =>
      have hfresh : Fresh p.name Γ := hk.contains_eq_false_iff.1 (by simp [Scope.contains, hp])
      obtain ⟨hnil, hknows⟩ := checkParams_spec (hk.bind (t := p.type) hfresh) ps
      simp only [Scope.define, hp]
      refine ⟨hnil.trans ?_, fun h => (hknows h).congr fun b => ?_⟩
      · simp only [fresh_cons, List.map_cons, List.nodup_cons, List.mem_map, List.mem_cons,
          forall_eq_or_imp, hfresh, true_and, not_exists, not_and]
        grind
      · simp [paramBindings, or_left_comm]

/-- **The check finds nothing exactly in well-typed functions.** -/
lemma checkFunction_eq_nil_iff {g : Callable} {f : Function} :
    checkFunction g.globals f = [] ↔ WellTypedFunction g f := by
  obtain ⟨hnil, hknows⟩ := checkParams_spec Knows.empty f.params
  simp only [List.append_nil] at hknows
  rw [checkFunction, List.append_eq_nil_iff]
  constructor
  · rintro ⟨hparams, hbody⟩
    obtain ⟨Γ, hpasses, -⟩ := checkStmts_sound (hknows hparams) f.body.body hbody
    exact ⟨(hnil.1 hparams).1, Γ, hpasses⟩
  · rintro ⟨hnodup, Γ, hpasses⟩
    have hparams := hnil.2 ⟨hnodup, fun p _ t => List.not_mem_nil⟩
    exact ⟨hparams, (checkStmts_complete (hknows hparams) hpasses).1⟩

/-- No name is found repeated if all are different and none was seen before. -/
lemma checkNames_eq_nil_iff {fs : List Function} : ∀ {seen : List String},
    checkNames seen fs = [] ↔ (fs.map (·.name)).Nodup ∧ ∀ f ∈ fs, f.name ∉ seen := by
  induction fs with
  | nil => simp [checkNames]
  | cons f fs ih =>
    intro seen
    rw [checkNames]
    by_cases hf : f.name ∈ seen
    · simp [hf]
    · simp only [hf, if_false, ih, List.map_cons, List.nodup_cons, List.mem_cons, List.mem_map]
      grind

/-- A program has no findings exactly if its functions have different names and each of them has
no findings. -/
lemma findings_eq_nil_iff {p : Program} {libraries : NameSet} :
    findings p libraries = [] ↔ WellTyped p libraries := by
  have hglobals : (p.info libraries).globals =
      Callable.globals ⟨p.functions.map (·.name), libraries⟩ := rfl
  rw [findings, List.append_eq_nil_iff, List.flatMap_eq_nil_iff, checkNames_eq_nil_iff, hglobals]
  simp only [checkFunction_eq_nil_iff, Program.allFunctions, List.mem_append, List.mem_singleton,
    List.not_mem_nil, not_false_iff, implies_true, and_true, or_imp, forall_and, forall_eq]
  exact ⟨fun ⟨hnames, hfunctions, hmain⟩ => ⟨hnames, hfunctions, hmain⟩,
    fun ⟨hnames, hfunctions, hmain⟩ => ⟨hnames, hfunctions, hmain⟩⟩

/-- The functions of an accepted program are accepted. -/
lemma checkFunction_eq_nil_of_mem {p : Program} {libraries : NameSet}
    (h : checkProgram p libraries = []) {f : Function} (hf : f ∈ p.allFunctions) :
    checkFunction (p.info libraries).globals f = [] := by
  have hfindings : findings p libraries = [] := List.map_eq_nil_iff.1 h
  exact List.flatMap_eq_nil_iff.1 (List.append_eq_nil_iff.1 hfindings).2 f hf

/-- **The check finds no error exactly in well-typed programs**, whatever the program tree and
the libraries.

**Proof sketch.** The errors are the findings, each put into its file.  Names of functions are
settled by `checkNames_eq_nil_iff`; each function is settled by `checkFunction_eq_nil_iff`, which
starts the statements of its body with the parameters and nothing else known. -/
theorem checkProgram_eq_nil_iff_wellTyped (p : Program) (libraries : NameSet) :
    checkProgram p libraries = [] ↔ WellTyped p libraries := by
  rw [checkProgram, List.map_eq_nil_iff]
  exact findings_eq_nil_iff

end Idyl.Typing
