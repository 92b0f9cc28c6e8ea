/-!
Texts cut at separators: pieces, lines, and words between white space.
-/
namespace MeasuredIdentity.Text

/-- The first piece of a list cut at each separator, and the pieces after it. -/
def cut {α : Type} (isSeparator : α → Bool) (s : List α) : List α × List (List α) :=
  s.foldr (fun x (piece, pieces) =>
    if isSeparator x then ([], piece :: pieces) else (x :: piece, pieces)) ([], [])

@[simp] theorem cut_nil {α : Type} (isSeparator : α → Bool) : cut isSeparator [] = ([], []) := rfl

theorem cut_cons {α : Type} (isSeparator : α → Bool) (x : α) (s : List α) :
    cut isSeparator (x :: s)
      = if isSeparator x then ([], (cut isSeparator s).1 :: (cut isSeparator s).2)
        else (x :: (cut isSeparator s).1, (cut isSeparator s).2) := rfl

/-- All pieces between separators, empty ones included. -/
def pieces {α : Type} (isSeparator : α → Bool) (s : List α) : List (List α) :=
  let (piece, more) := cut isSeparator s
  piece :: more

/-- A separator stands between the pieces of what is in front of it and of what is behind it. -/
theorem pieces_append {α : Type} {isSeparator : α → Bool} {s : α} (hs : isSeparator s = true)
    (front back : List α) :
    pieces isSeparator (front ++ s :: back) = pieces isSeparator front ++ pieces isSeparator back := by
  induction front with
  | nil => simp [pieces, cut_cons, hs]
  | cons x front ih =>
    simp only [pieces, List.cons_append, List.cons.injEq] at ih
    cases hx : isSeparator x <;> simp [pieces, cut_cons, hx, ih]

theorem pieces_of_forall_not {α : Type} {isSeparator : α → Bool} {s : List α}
    (h : ∀ x ∈ s, isSeparator x = false) : pieces isSeparator s = [s] := by
  induction s with
  | nil => rfl
  | cons x s ih =>
    have ih := ih fun y hy => h y (List.mem_cons_of_mem x hy)
    simp only [pieces, List.cons.injEq] at ih
    simp [pieces, cut_cons, h x List.mem_cons_self, ih]

theorem pieces_append_cons {α : Type} {isSeparator : α → Bool} {line rest : List α} {s : α}
    (h : ∀ x ∈ line, isSeparator x = false) (hs : isSeparator s = true) :
    pieces isSeparator (line ++ s :: rest) = line :: pieces isSeparator rest := by
  rw [pieces_append hs, pieces_of_forall_not h]
  rfl

/-- The White_Space property. -/
def isBlank (c : Char) : Bool :=
  let n := c.toNat
  (0x09 ≤ n && n ≤ 0x0d) || n == 0x20 || n == 0x85 || n == 0xa0 || n == 0x1680
    || (0x2000 ≤ n && n ≤ 0x200a) || n == 0x2028 || n == 0x2029 || n == 0x202f || n == 0x205f
    || n == 0x3000

/-- The nonempty runs of characters between white space. -/
def words (s : List Char) : List (List Char) := (pieces isBlank s).filter (· ≠ [])

/-- The lines of a text, without their line feeds. -/
def lines (s : List Char) : List (List Char) := pieces (· == '\n') s

end MeasuredIdentity.Text
