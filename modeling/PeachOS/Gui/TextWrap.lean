/-
**Text that wraps: `font_draw_text_wrap` of `programs/guilib/src/font.c`.**

At a carriage return the loop goes to the next row and on, without going to the next character: it sees the carriage return again,
and does not end.

* `textWrapLoop_fits` — text without a carriage return is laid out, up to the bottom edge;
* `textWrapLoop_stuck` — the loop does not end once it is at a carriage return;
* `fontDrawTextWrap_iff` — so text is drawn as it is laid out when it has no carriage return, or when it is cut before the
  first one.
-/

import Mathlib.Data.List.TakeWhile
import PeachOS.Graphics.Terminal

namespace PeachOS

/-! ### The code -/

/-- A call of `font_draw`, with the place and the character. -/
structure DrawnGlyph where
  screenX : Int
  screenY : Int
  character : Byte
deriving DecidableEq

/-- `screen_x`, `screen_y`, `width` and `height`. -/
structure TextArea where
  screenX : Int
  screenY : Int
  width : Int
  height : Int

namespace TextArea

/-- `ending_x`. -/
def endingX (area : TextArea) : Int := toInt32 (area.screenX + area.width)

/-- `ending_y`. -/
def endingY (area : TextArea) : Int := toInt32 (area.screenY + area.height)

end TextArea

/-- `current_x` one character on. -/
def nextX (font : Font) (currentX : Int) : Int := toInt32 (currentX + font.bitsWidthPerCharacter)

/-- `current_y` one row on. -/
def nextY (font : Font) (currentY : Int) : Int := toInt32 (currentY + font.bitsHeightPerCharacter)

/-- The loop of `font_draw_text_wrap` on the string from `c` on, with the glyphs that were drawn; `none` while it goes on. -/
def textWrapLoop (font : Font) (area : TextArea) : (fuel : Nat) → (c : List Byte) → (currentX currentY : Int) → List DrawnGlyph →
    Option (List DrawnGlyph)
  | 0, _, _, _, _ => none
  | _ + 1, [], _, _, drawn => some drawn
  | fuel + 1, character :: c, currentX, currentY, drawn =>
      if character = 0x0D#8 then textWrapLoop font area fuel (character :: c) area.screenX (nextY font currentY) drawn
      else
        let wraps := currentX ≥ area.endingX
        let currentY := if wraps then nextY font currentY else currentY
        let currentX := if wraps then area.screenX else currentX
        if currentY ≥ area.endingY then some drawn
        else textWrapLoop font area fuel c (nextX font currentX) currentY (drawn ++ [⟨currentX, currentY, character⟩])

/-- `font_draw_text_wrap`: the glyphs that it draws. -/
def fontDrawTextWrap (fuel : Nat) (font : Font) (area : TextArea) (str : List Byte) : Option (List DrawnGlyph) :=
  textWrapLoop font area fuel str area.screenX area.screenY []

/-! ### The layout -/

/-- **The layout of a text** from a place on: a new row at a carriage return and at the right edge, up to the first glyph that
would be at the bottom edge or below it. -/
def textLayout (font : Font) (area : TextArea) : (text : List Byte) → (x y : Int) → List DrawnGlyph
  | [], _, _ => []
  | character :: text, x, y =>
      if character = 0x0D#8 then textLayout font area text area.screenX (nextY font y)
      else
        let y := if area.endingX ≤ x then nextY font y else y
        let x := if area.endingX ≤ x then area.screenX else x
        if area.endingY ≤ y then [] else ⟨x, y, character⟩ :: textLayout font area text (nextX font x) y

/-- **Text is drawn as it is laid out**: the loop ends, and no glyph is at the bottom edge or below it. -/
def DrawsLayout (font : Font) (area : TextArea) (text : List Byte) : Prop :=
  ∃ bound, ∀ fuel ≥ bound, ∃ drawn, fontDrawTextWrap fuel font area text = some drawn ∧
    drawn = textLayout font area text area.screenX area.screenY ∧ ∀ glyph ∈ drawn, glyph.screenY < area.endingY

section Layout

variable {font : Font} {area : TextArea}

/-- No glyph is laid out at the bottom edge or below it. -/
theorem textLayout_above (text : List Byte) (x y : Int) :
    ∀ glyph ∈ textLayout font area text x y, glyph.screenY < area.endingY := by
  induction text generalizing x y with
  | nil => exact fun glyph isIn => absurd isIn List.not_mem_nil
  | cons character text ih =>
      rw [textLayout]
      split
      · exact ih _ _
      · generalize (if area.endingX ≤ x then nextY font y else y) = row
        generalize (if area.endingX ≤ x then area.screenX else x) = column
        dsimp only
        split
        · exact fun glyph isIn => absurd isIn List.not_mem_nil
        · next above => exact List.forall_mem_cons.mpr ⟨not_le.mp above, ih _ _⟩

/-- **The loop lays out the text before a carriage return**, when it is cut there or when nothing is behind it. -/
theorem textWrapLoop_fits (front rest : List Byte) (noReturn : 0x0D#8 ∉ front) (x y : Int) (drawn : List DrawnGlyph) (fuel : Nat)
    (enough : front.length < fuel) (cut : rest = [] ∨ (textLayout font area front x y).length < front.length) :
    textWrapLoop font area fuel (front ++ rest) x y drawn = some (drawn ++ textLayout font area (front ++ rest) x y) := by
  induction front generalizing x y drawn fuel with
  | nil =>
      obtain ⟨fuel, rfl⟩ : ∃ fuel', fuel = fuel' + 1 := ⟨fuel - 1, by omega⟩
      obtain rfl := cut.resolve_right (Nat.not_lt_zero _)
      rw [List.nil_append, textWrapLoop, textLayout, List.append_nil]
  | cons character front ih =>
      obtain ⟨fuel, rfl⟩ : ∃ fuel', fuel = fuel' + 1 := ⟨fuel - 1, by omega⟩
      obtain ⟨other, noReturn⟩ := not_or.mp (fun isIn => noReturn (List.mem_cons.mpr isIn))
      have notReturn : ¬ character = 0x0D#8 := fun same => other same.symm
      rw [List.cons_append, textWrapLoop, textLayout, if_neg notReturn, if_neg notReturn]
      rw [textLayout, if_neg notReturn] at cut
      dsimp only [ge_iff_le] at cut ⊢
      generalize (if area.endingX ≤ x then nextY font y else y) = row at cut ⊢
      generalize (if area.endingX ≤ x then area.screenX else x) = column at cut ⊢
      split
      · rw [List.append_nil]
      · next above =>
          rw [if_neg above, List.length_cons, List.length_cons] at cut
          rw [ih noReturn _ _ _ fuel (Nat.lt_of_succ_lt_succ enough) (cut.imp_right Nat.lt_of_succ_lt_succ), List.append_assoc]
          rfl

/-- **At a carriage return the loop does not end.** -/
theorem textWrapLoop_stuck (fuel : Nat) (front rest : List Byte) (noReturn : 0x0D#8 ∉ front) (x y : Int) (drawn : List DrawnGlyph)
    (reached : ¬ (textLayout font area front x y).length < front.length) :
    textWrapLoop font area fuel (front ++ 0x0D#8 :: rest) x y drawn = none := by
  induction fuel generalizing front x y drawn with
  | zero => rfl
  | succ fuel ih =>
      cases front with
      | nil =>
          rw [List.nil_append, textWrapLoop, if_pos rfl]
          exact ih [] List.not_mem_nil _ _ _ (Nat.not_lt_zero _)
      | cons character front =>
          obtain ⟨other, noReturn⟩ := not_or.mp (fun isIn => noReturn (List.mem_cons.mpr isIn))
          have notReturn : ¬ character = 0x0D#8 := fun same => other same.symm
          rw [List.cons_append, textWrapLoop, if_neg notReturn]
          rw [textLayout, if_neg notReturn] at reached
          dsimp only [ge_iff_le] at reached ⊢
          generalize (if area.endingX ≤ x then nextY font y else y) = row at reached ⊢
          generalize (if area.endingX ≤ x then area.screenX else x) = column at reached ⊢
          split
          · next below =>
              rw [if_pos below] at reached
              exact absurd (Nat.succ_pos _) reached
          · next above =>
              rw [if_neg above, List.length_cons, List.length_cons] at reached
              exact ih front noReturn _ _ _ fun shorter => reached (Nat.succ_lt_succ shorter)

end Layout

/-- The text before the first carriage return. -/
def beforeReturn (text : List Byte) : List Byte := text.takeWhile fun character => character ≠ 0x0D#8

/-- No carriage return is in it. -/
theorem beforeReturn_noReturn (text : List Byte) : 0x0D#8 ∉ beforeReturn text := by
  intro isIn
  have kept := List.mem_takeWhile_imp isIn
  exact of_decide_eq_true kept rfl

/-- The first carriage return is behind it. -/
theorem returns_split {text : List Byte} (returns : 0x0D#8 ∈ text) : ∃ rest, text = beforeReturn text ++ 0x0D#8 :: rest := by
  induction text with
  | nil => exact absurd returns List.not_mem_nil
  | cons character text ih =>
      unfold beforeReturn at ih ⊢
      by_cases here : character = 0x0D#8
      · rw [List.takeWhile_cons_of_neg (by simp [here]), here]
        exact ⟨text, rfl⟩
      · obtain ⟨rest, split⟩ := ih ((List.mem_cons.mp returns).resolve_left fun same => here same.symm)
        rw [List.takeWhile_cons_of_pos (by simp [here])]
        exact ⟨rest, congrArg (character :: ·) split⟩

/-- **Text is drawn as it is laid out when no carriage return is reached.** -/
theorem fontDrawTextWrap_iff (font : Font) (area : TextArea) (text : List Byte) : DrawsLayout font area text ↔
    0x0D#8 ∉ text ∨ (textLayout font area (beforeReturn text) area.screenX area.screenY).length < (beforeReturn text).length := by
  have noReturn := beforeReturn_noReturn text
  by_cases none : 0x0D#8 ∉ text
  · refine iff_of_true ⟨text.length + 1, fun fuel enough => ⟨_, ?_, rfl, textLayout_above _ _ _⟩⟩ (Or.inl none)
    have drawn := @textWrapLoop_fits font area text [] none area.screenX area.screenY [] fuel enough (Or.inl rfl)
    rwa [List.append_nil, List.nil_append] at drawn
  · obtain ⟨rest, split⟩ : ∃ rest, text = beforeReturn text ++ 0x0D#8 :: rest := returns_split (not_not.mp none)
    constructor
    · rintro ⟨bound, draws⟩
      refine Or.inr ?_
      by_contra reached
      obtain ⟨drawn, ends, -⟩ := draws bound le_rfl
      unfold fontDrawTextWrap at ends
      rw [split, textWrapLoop_stuck bound _ rest noReturn _ _ _ reached] at ends
      exact absurd ends (by simp)
    · intro cut
      have cut := cut.resolve_left none
      refine ⟨(beforeReturn text).length + 1, fun fuel enough => ⟨_, ?_, rfl, textLayout_above _ _ _⟩⟩
      have drawn := @textWrapLoop_fits font area (beforeReturn text) (0x0D#8 :: rest) noReturn area.screenX area.screenY
        [] fuel enough
        (Or.inr cut)
      rwa [← split, List.nil_append] at drawn

/-- A font of eight by eleven pixels. -/
def smallFont : Font := ⟨96, fun _ => 0x00#8, 8, 11, 0x20#8⟩

/-- **A carriage return is never drawn past.** -/
theorem fontDrawTextWrap_stuck : ¬ ∀ font : Font, 0 < font.bitsWidthPerCharacter → 0 < font.bitsHeightPerCharacter → ∀ area text,
    DrawsLayout font area text := by
  intro always
  obtain ⟨bound, draws⟩ := always smallFont (by decide) (by decide) ⟨0, 0, 80, 22⟩ [0x61#8, 0x0D#8, 0x62#8]
  obtain ⟨drawn, ends, -⟩ := draws bound le_rfl
  have stuck := @textWrapLoop_stuck smallFont ⟨0, 0, 80, 22⟩ bound [0x61#8] [0x62#8] (by decide) 0 0 [] (by decide)
  unfold fontDrawTextWrap at ends
  exact absurd (stuck.symm.trans ends) (by simp)

end PeachOS
