/-
Lexeme.Proofs.Cursor.Movement — every move of a cursor is one advance.

However a cursor is moved, it ends up where one `advanceBy` would have taken
it: eating the bytes of a class is advancing by the length of their run
(`eatWhile_eq_advanceBy`), and two advances are one. So all that a cursor
knows follows from the number of bytes it has passed. `Reaches` names the
relation, and `reaches_of_moves` says that nothing else can be reached.

  §1 Advancing — past the end there is nowhere to go.
  §2 Eating    — one advance by the length of a run.
  §3 Searching — what the first match of a search is.
  §4 Reaching  — the cursors that moves lead to.
-/
import Lexeme.Cursor

namespace Lexeme.Cursor

/-! ## §1 Advancing -/

@[simp] theorem source_ofString (source : String) : (ofString source).source = source := rfl

@[simp] theorem ahead_ofString (source : String) :
    (ofString source).ahead = Text.bytes source := rfl

@[simp] theorem position_ofString (source : String) : (ofString source).position = 0 := rfl

@[simp] theorem size_ofString (source : String) :
    (ofString source).size = source.utf8ByteSize := rfl

theorem advance_eq_advanceBy (c : Cursor) : c.advance = c.advanceBy 1 := by
  rw [advanceBy]
  split
  · rename_i h
    exact advance_of_isAtEnd c h
  · rfl

theorem line_advance {c : Cursor} {b : UInt8} {rest : List UInt8} (h : c.ahead = b :: rest) :
    c.advance.line = if isBreak b rest then c.line + 1 else c.line := by
  unfold advance
  split
  · rename_i hnil
    simp [h] at hnil
  · rename_i hcons
    obtain ⟨rfl, rfl⟩ := List.cons.inj (h.symm.trans hcons)
    rfl

theorem column_advance {c : Cursor} {b : UInt8} {rest : List UInt8} (h : c.ahead = b :: rest) :
    c.advance.column =
      if isBreak b rest then 1 else if Text.isContinuation b then c.column else c.column + 1 := by
  unfold advance
  split
  · rename_i hnil
    simp [h] at hnil
  · rename_i hcons
    obtain ⟨rfl, rfl⟩ := List.cons.inj (h.symm.trans hcons)
    rfl

theorem advanceBy_of_ahead_nil {c : Cursor} (h : c.ahead = []) (n : Nat) : c.advanceBy n = c := by
  cases n with
  | zero => rfl
  | succ n => rw [advanceBy, if_pos (by simp [isAtEnd, h])]

theorem advanceBy_of_length_le {c : Cursor} {n : Nat} (h : c.ahead.length ≤ n) :
    c.advanceBy n = c.advanceBy c.ahead.length := by
  have hend : (c.advanceBy c.ahead.length).ahead = [] := by simp
  calc c.advanceBy n = (c.advanceBy c.ahead.length).advanceBy (n - c.ahead.length) := by
        rw [advanceBy_advanceBy, Nat.add_sub_cancel' h]
    _ = c.advanceBy c.ahead.length := advanceBy_of_ahead_nil hend _

theorem length_ahead_advanceBy (c : Cursor) (n : Nat) :
    (c.advanceBy n).ahead.length = c.ahead.length - n := by
  simp

/-! ## §2 Eating -/

theorem eatFrom_eq_advanceBy (p : UInt8 → Bool) (bs : List UInt8) (c : Cursor)
    (h : c.ahead = bs) : eatFrom p bs c = c.advanceBy (bs.takeWhile p).length := by
  induction bs generalizing c with
  | nil => rfl
  | cons b bs ih =>
    rw [eatFrom]
    cases hb : p b with
    | false => simp [hb, advanceBy]
    | true =>
      rw [if_pos rfl, ih c.advance (by simp [h]), advance_eq_advanceBy, advanceBy_advanceBy,
        List.takeWhile_cons_of_pos hb, List.length_cons, Nat.add_comm]

theorem eatWhile_eq_advanceBy (c : Cursor) (p : UInt8 → Bool) :
    c.eatWhile p = c.advanceBy (c.ahead.takeWhile p).length :=
  eatFrom_eq_advanceBy p c.ahead c rfl

/-- Eating passes a run that ends where the bytes do or where `p` fails. -/
theorem eatWhile_of_append {c : Cursor} {p : UInt8 → Bool} {as bs : List UInt8}
    (h : c.ahead = as ++ bs) (has : ∀ b ∈ as, p b = true) (hbs : ∀ b ∈ bs.head?, p b = false) :
    c.eatWhile p = c.advanceBy as.length := by
  have hstop : bs.takeWhile p = [] := by
    cases bs with
    | nil => rfl
    | cons b bs => simp [hbs b rfl]
  rw [eatWhile_eq_advanceBy, h, List.takeWhile_append_of_pos has, hstop, List.append_nil]

/-! ## §3 Searching -/

/-- The first match: bytes before it that do not satisfy `p`, from `skip` on, and it does. -/
theorem find?_of_append {c : Cursor} {p : UInt8 → Bool} {skip : Nat} {as bs : List UInt8}
    {b : UInt8} (h : c.ahead = as ++ b :: bs) (hskip : skip ≤ as.length)
    (has : ∀ x ∈ as.drop skip, p x = false) (hb : p b = true) :
    c.find? p skip = some as.length := by
  have hfirst : ((as ++ b :: bs).drop skip).findIdx? p = some (as.length - skip) := by
    rw [List.drop_append_of_le_length hskip, List.findIdx?_append,
      List.findIdx?_eq_none_iff.mpr has, List.findIdx?_cons, hb]
    simp
  rw [find?, h, hfirst, Option.map_some, Nat.sub_add_cancel hskip]

theorem find?_eq_none {c : Cursor} {p : UInt8 → Bool} {skip : Nat}
    (h : ∀ x ∈ c.ahead.drop skip, p x = false) : c.find? p skip = none := by
  rw [find?, List.findIdx?_eq_none_iff.mpr h, Option.map_none]

/-! ## §4 Reaching -/

/-- A way to move. -/
inductive Move where
  | advance
  | advanceBy (count : Nat)
  | eatWhile (p : UInt8 → Bool)

def move (c : Cursor) : Move → Cursor
  | .advance => c.advance
  | .advanceBy count => c.advanceBy count
  | .eatWhile p => c.eatWhile p

def moves (c : Cursor) (ms : List Move) : Cursor :=
  ms.foldl move c

/-- `d` is ahead of `c`, or is `c`. -/
def Reaches (c d : Cursor) : Prop :=
  ∃ n, d = c.advanceBy n

namespace Reaches

theorem refl (c : Cursor) : c.Reaches c :=
  ⟨0, rfl⟩

theorem trans {c d e : Cursor} (h₁ : c.Reaches d) (h₂ : d.Reaches e) : c.Reaches e := by
  obtain ⟨m, rfl⟩ := h₁
  obtain ⟨n, rfl⟩ := h₂
  exact ⟨m + n, advanceBy_advanceBy c m n⟩

theorem advanceBy (c : Cursor) (n : Nat) : c.Reaches (c.advanceBy n) :=
  ⟨n, rfl⟩

theorem advance (c : Cursor) : c.Reaches c.advance :=
  ⟨1, advance_eq_advanceBy c⟩

theorem eatWhile (c : Cursor) (p : UInt8 → Bool) : c.Reaches (c.eatWhile p) :=
  ⟨_, eatWhile_eq_advanceBy c p⟩

theorem move (c : Cursor) (m : Move) : c.Reaches (c.move m) := by
  cases m with
  | advance => exact Reaches.advance c
  | advanceBy n => exact Reaches.advanceBy c n
  | eatWhile p => exact Reaches.eatWhile c p

theorem length_ahead_le {c d : Cursor} (h : c.Reaches d) : d.ahead.length ≤ c.ahead.length := by
  obtain ⟨n, rfl⟩ := h
  rw [length_ahead_advanceBy]
  exact Nat.sub_le _ _

end Reaches

theorem reaches_of_moves (c : Cursor) (ms : List Move) : c.Reaches (c.moves ms) := by
  induction ms generalizing c with
  | nil => exact .refl c
  | cons m ms ih => exact (Reaches.move c m).trans (ih (c.move m))

end Lexeme.Cursor
