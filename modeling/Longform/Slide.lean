import Longform.Text.Case

/-! Slides of a rendered document: the trimmed, non-blank pieces between its horizontal rules. The
cut is textual, wherever a rule stands. -/
namespace Longform
namespace Slide

/-- What follows a rule tag that the text begins with: `<hr` in either case, blanks, an optional
slash and `>`. -/
def afterRule? (t : Text) : Option Text :=
  match t with
  | '<' :: h :: r :: rest =>
    if Text.foldChar h = 'h' && Text.foldChar r = 'r' then
      match rest.dropWhile Text.isBlank with
      | '>' :: s => some s
      | '/' :: '>' :: s => some s
      | _ => none
    else none
  | _ => none

theorem length_afterRule? {t r : Text} (h : afterRule? t = some r) : r.length < t.length := by
  unfold afterRule? at h
  split at h <;> try contradiction
  rename_i a b rest
  split at h <;> try contradiction
  have hd := (List.dropWhile_sublist Text.isBlank (l := rest)).length_le
  split at h <;> simp_all <;> omega

/-- The pieces between rule tags, leftmost tags first. -/
def pieces (t : Text) : List Text :=
  match _h : afterRule? t with
  | some r => [] :: pieces r
  | none => match t with
    | [] => [[]]
    | c :: r => match pieces r with
      | [] => [[c]]
      | p :: ps => (c :: p) :: ps
termination_by t.length
decreasing_by
  · exact length_afterRule? _h
  · simp

/-- The trimmed pieces that are not empty. -/
def split (html : Text) : List Text :=
  ((pieces html).map Text.trim).filter fun p => !p.isEmpty

end Slide
end Longform
