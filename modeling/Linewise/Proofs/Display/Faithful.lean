import Linewise.Proofs.Display.Cleanness

/-!
# What is shown tells the tree

Two texts are shown alike exactly if their trees differ in nothing but the places of their
parts.
-/

namespace Linewise

namespace SourceFile

/-- The one form that is shown of a source file. -/
def outline (file : SourceFile) : Outline :=
  .form "source_file" (Node.outlinesOfAll (Statement.nodes file.statements))

theorem outlinesOfAll_node (file : SourceFile) :
    Node.outlinesOfAll [file.node] = [file.outline] := rfl

theorem render_eq_outline (file : SourceFile) : file.render = file.outline.render := by
  simp [render, node, outline, Node.render, Node.outlines, Outline.renderRow, Outline.renderItems]

theorem parts?_outline (file : SourceFile) :
    Outline.parts? [file.outline] = some [.file file.erased.statements] := by
  rw [← outlinesOfAll_node]
  exact file.shows_node

theorem erased_eq_of_outline {a b : SourceFile} (h : a.outline = b.outline) :
    a.erased = b.erased := by
  have hparts := a.parts?_outline
  rw [h, b.parts?_outline] at hparts
  injection hparts with hparts
  injection hparts with hpart
  injection hpart with hstatements
  exact congrArg (fun statements => SourceFile.mk statements default) hstatements.symm

/-- Two source files with plain names and numbers are shown alike exactly if they are the
same without their spans. -/
theorem render_eq_iff {a b : SourceFile} (ha : Symbol.ArePlain a.script)
    (hb : Symbol.ArePlain b.script) : a.render = b.render <-> a.erased = b.erased := by
  constructor
  · intro h
    rw [render_eq_outline, render_eq_outline] at h
    have hend : Text.EndsWord [] := by simp [Text.EndsWord]
    have houtline := Outline.render_cancel (clean_node ha).1 (clean_node hb).1 hend hend
      (congrArg (fun text => text.toList ++ []) h)
    exact erased_eq_of_outline houtline.1
  · intro h
    -- Erasing the spans of a file is a relabelling, and these do not change what is shown.
    have herased : forall file : SourceFile, file.erased.render = file.render :=
      fun _ => render_relabel rfl rfl
    rw [← herased a, ← herased b, h]

end SourceFile

/-- Every text is read, and two of them are shown alike exactly if their trees are the
same without their spans. -/
theorem parse_render_faithful (first second : String) :
    exists parsed parsed', parse first = .ok parsed ∧ parse second = .ok parsed' ∧
      (parsed.file.render = parsed'.file.render <-> parsed.file.erased = parsed'.file.erased) := by
  rcases parse_arePlain first with ⟨parsed, hparsed, hplain⟩
  rcases parse_arePlain second with ⟨parsed', hparsed', hplain'⟩
  exact ⟨parsed, parsed', hparsed, hparsed', SourceFile.render_eq_iff hplain hplain'⟩

end Linewise
