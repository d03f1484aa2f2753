import Linewise.Proofs.Composed

/-!
# Matched brackets

Brackets are read with a stack of those that are open.  A list of kinds is
matched if every bracket that it closes is the last one that it opened, and none
is left open.  The script of every tree is balanced: read on top of any stack it
leaves the stack as it was.
-/

namespace Linewise

inductive Bracket where
  | round
  | curly
  | square
deriving DecidableEq

namespace Kind

/-- The bracket that a token of this kind opens. -/
def opened? : Kind -> Option Bracket
  | .mark .openParen => some .round
  | .mark .openCurly => some .curly
  | .mark .openBracket => some .square
  | _ => none

/-- The bracket that a token of this kind closes. -/
def closed? : Kind -> Option Bracket
  | .mark .closeParen => some .round
  | .mark .closeCurly => some .curly
  | .mark .closeBracket => some .square
  | _ => none

end Kind

namespace Bracket

/-- The brackets that are open behind one more token, if it fits. -/
def step (stack : List Bracket) (kind : Kind) : Option (List Bracket) :=
  match kind.opened?, kind.closed?, stack with
  | some bracket, _, _ => some (bracket :: stack)
  | none, none, _ => some stack
  | none, some _, [] => none
  | none, some bracket, top :: below => if top = bracket then some below else none

/-- The brackets that are open behind tokens of the given kinds. -/
def unwind (stack : List Bracket) : List Kind -> Option (List Bracket)
  | [] => some stack
  | kind :: rest => (step stack kind).bind (fun stack => unwind stack rest)

@[simp] theorem unwind_nil (stack : List Bracket) : unwind stack [] = some stack := rfl

theorem unwind_cons (stack : List Bracket) (kind : Kind) (rest : List Kind) :
    unwind stack (kind :: rest) = (step stack kind).bind (fun stack => unwind stack rest) := rfl

theorem unwind_append (stack : List Bracket) (first second : List Kind) :
    unwind stack (first ++ second) =
      (unwind stack first).bind (fun stack => unwind stack second) := by
  induction first generalizing stack with
  | nil => rfl
  | cons kind rest ih =>
      rw [List.cons_append, unwind_cons, unwind_cons]
      cases step stack kind with
      | none => rfl
      | some stack => exact ih stack

/-- Every bracket is closed by its own kind, and in the right order. -/
def Matched (kinds : List Kind) : Prop := unwind [] kinds = some []

instance (kinds : List Kind) : Decidable (Matched kinds) :=
  inferInstanceAs (Decidable (unwind [] kinds = some []))

/-!
## Plain kinds
-/

def plain (kind : Kind) : Bool := kind.opened?.isNone && kind.closed?.isNone

theorem step_plain {kind : Kind} (h : plain kind = true) (stack : List Bracket) :
    step stack kind = some stack := by
  simp only [plain, Bool.and_eq_true, Option.isNone_iff_eq_none] at h
  simp [step, h.left, h.right]

theorem unwind_plain {kinds : List Kind} (h : forall kind, kind ∈ kinds -> plain kind = true)
    (stack : List Bracket) : unwind stack kinds = some stack := by
  induction kinds with
  | nil => rfl
  | cons kind rest ih =>
      rw [unwind_cons, step_plain (h kind (by simp))]
      exact ih (fun other hother => h other (by simp [hother]))

/-!
## Brackets around tokens
-/

theorem step_append {stack stack' : List Bracket} {kind : Kind} (below : List Bracket)
    (h : step stack kind = some stack') : step (stack ++ below) kind = some (stack' ++ below) := by
  unfold step at h ⊢
  cases hopened : kind.opened? with
  | some bracket =>
      rw [hopened] at h
      simp only [Option.some.injEq] at h ⊢
      rw [← h, List.cons_append]
  | none =>
      rw [hopened] at h
      cases hclosed : kind.closed? with
      | none =>
          rw [hclosed] at h
          simp only [Option.some.injEq] at h ⊢
          rw [h]
      | some bracket =>
          rw [hclosed] at h
          cases stack with
          | nil => cases h
          | cons top rest =>
              simp only [List.cons_append] at h ⊢
              split at h
              · rename_i htop
                injection h with h
                rw [if_pos htop, h]
              · cases h

theorem unwind_below {stack stack' : List Bracket} {kinds : List Kind} (below : List Bracket)
    (h : unwind stack kinds = some stack') :
    unwind (stack ++ below) kinds = some (stack' ++ below) := by
  induction kinds generalizing stack with
  | nil =>
      injection h with h
      rw [h, unwind_nil]
  | cons kind rest ih =>
      rw [unwind_cons] at h ⊢
      cases hstep : step stack kind with
      | none =>
          rw [hstep] at h
          cases h
      | some behind =>
          rw [hstep] at h
          rw [step_append below hstep]
          exact ih h

theorem Matched.unwind {kinds : List Kind} (h : Matched kinds) (stack : List Bracket) :
    unwind stack kinds = some stack := unwind_below stack h

theorem step_none_of_closing {bracket : Bracket} {kind : Kind}
    (h : step [bracket] kind = some []) : step [] kind = none := by
  simp only [step] at h ⊢
  split at h <;> simp_all

end Bracket

/-!
## Brackets of scripts
-/

namespace Symbol

def kind? : Symbol -> Option Kind
  | .word kind _ => some kind
  | .statement _ => none

def kinds (script : List Symbol) : List Kind := script.filterMap kind?

@[simp] theorem kinds_nil : kinds [] = [] := rfl

@[simp] theorem kinds_append (first second : List Symbol) :
    kinds (first ++ second) = kinds first ++ kinds second := List.filterMap_append

@[simp] theorem kinds_word (kind : Kind) (value : String) (rest : List Symbol) :
    kinds (.word kind value :: rest) = kind :: kinds rest := rfl

@[simp] theorem kinds_statement (statement : Statement) (rest : List Symbol) :
    kinds (.statement statement :: rest) = kinds rest := rfl

def Balanced (script : List Symbol) : Prop := Bracket.Matched (kinds script)

theorem balanced_nil : Balanced [] := rfl

theorem Balanced.append {first second : List Symbol} (hfirst : Balanced first)
    (hsecond : Balanced second) : Balanced (first ++ second) := by
  unfold Balanced Bracket.Matched
  rw [kinds_append, Bracket.unwind_append, hfirst.unwind]
  exact hsecond

theorem plain_of_isSingle {kind : Kind} (h : kind.isSingle = true) :
    Bracket.plain kind = true := by
  cases kind with
  | mark found => cases found <;> first | rfl | cases h
  | _ => rfl

theorem Balanced.enclosed {inner : List Symbol} {opening closing : Mark} {bracket : Bracket}
    (hopening : Bracket.step [] (.mark opening) = some [bracket])
    (hclosing : Bracket.step [bracket] (.mark closing) = some []) (h : Balanced inner) :
    Balanced (mark opening :: (inner ++ [mark closing])) := by
  unfold Balanced Bracket.Matched mark
  rw [kinds_word, kinds_append, Bracket.unwind_cons, hopening, Option.bind_some,
    Bracket.unwind_append, h.unwind, Option.bind_some, kinds_word, Bracket.unwind_cons, hclosing]
  rfl

theorem unwind_ungroup {before inner : List Symbol} (h : Balanced inner)
    (below : List Bracket) :
    Bracket.unwind below
        (kinds (before ++ mark .openParen :: (inner ++ [mark .closeParen]))) =
      Bracket.unwind below (kinds (before ++ inner)) := by
  have hgroup : Balanced (mark .openParen :: (inner ++ [mark .closeParen])) :=
    Balanced.enclosed rfl rfl h
  rw [kinds_append, kinds_append, Bracket.unwind_append, Bracket.unwind_append]
  congr 1
  funext stack
  exact (hgroup.unwind stack).trans (h.unwind stack).symm

theorem balanced_composed : Composed Balanced where
  nil := balanced_nil
  append := Balanced.append
  word := by
    intro kind value hkind
    have hplain := plain_of_isSingle hkind
    simp [Balanced, Bracket.Matched, Bracket.unwind_cons, Bracket.step_plain hplain]
  curly := Balanced.enclosed rfl rfl
  square := Balanced.enclosed rfl rfl
  announced := fun _ _ h => h

end Symbol

end Linewise
