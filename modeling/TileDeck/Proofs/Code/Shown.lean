import TileDeck.Proofs.Code.Glyphs

set_option autoImplicit false

namespace TileDeck.Code

open Coordinate Plane

variable {x y : Int32}

theorem toInt_columnAt {k : Nat} (h : x.toInt + k ≤ greatest) :
    (columnAt x k).toInt = x.toInt + k :=
  toInt_add_ofNat h

theorem toInt_columnAt_sub_one {k : Nat} (h : x.toInt + (k + 1 : Nat) ≤ greatest) :
    (columnAt x (k + 1) - 1).toInt = x.toInt + k := by
  have hx : least ≤ x.toInt := x.le_toInt
  have hone : (1 : Int32).toInt = 1 := rfl
  have hk := toInt_columnAt h
  rw [toInt_sub_of_le, hk, hone]
  · omega
  · rw [hk, hone]
    omega
  · rw [hk, hone]
    omega

theorem marked_text {k : Nat} {text : List Char} (h : x.toInt + k + text.length ≤ greatest)
    (plane : Plane) :
    Marked (Mark.row (x.toInt + k) y.toInt (Glyph.ofText plane.ink text)) plane
      (plane.putText (columnAt x k) y (String.ofList text)) := by
  have hk : (columnAt x k).toInt = x.toInt + k := toInt_columnAt (by omega)
  have hfits : (columnAt x k).toInt + (String.ofList text).length ≤ greatest := by
    rwa [hk, String.length_ofList]
  have htext := marked_putText (y := y) hfits plane
  rwa [hk, String.toList_ofList] at htext

theorem marked_literal {k : Nat} {body : List Char}
    (h : x.toInt + k + (body.length + 2 : Nat) ≤ greatest) (plane : Plane) :
    Marked (Mark.row (x.toInt + k) y.toInt (⟨QuoteSide.opening.glyph, plane.ink⟩ ::
        Glyph.ofText plane.ink body ++ [⟨QuoteSide.closing.glyph, plane.ink⟩])) plane
      (((plane.put (columnAt x (k + 1) - 1) y QuoteSide.opening.glyph).putText (columnAt x (k + 1)) y
          (String.ofList body)).put (columnAt x (k + 1 + body.length)) y QuoteSide.closing.glyph) := by
  generalize hopened : plane.put (columnAt x (k + 1) - 1) y QuoteSide.opening.glyph = opened
  generalize hwritten : opened.putText (columnAt x (k + 1)) y (String.ofList body) = written
  have hopenedInk : opened.ink = plane.ink := by rw [← hopened, ink_put]
  have hwrittenInk : written.ink = plane.ink := by rw [← hwritten, ink_putText, hopenedInk]
  have hopening := marked_put (columnAt x (k + 1) - 1) y QuoteSide.opening.glyph plane
  rw [toInt_columnAt_sub_one (by omega), hopened] at hopening
  have hbody := @marked_text x y (k + 1) body (by omega) opened
  rw [hwritten, hopenedInk] at hbody
  have hclosing := marked_put (columnAt x (k + 1 + body.length)) y QuoteSide.closing.glyph written
  rw [toInt_columnAt (by omega), hwrittenInk] at hclosing
  have hrow : Mark.row (x.toInt + k) y.toInt (⟨QuoteSide.opening.glyph, plane.ink⟩ ::
      Glyph.ofText plane.ink body ++ [⟨QuoteSide.closing.glyph, plane.ink⟩]) =
      [.write (x.toInt + k) y.toInt ⟨QuoteSide.opening.glyph, plane.ink⟩] ++
        Mark.row (x.toInt + (k + 1 : Nat)) y.toInt (Glyph.ofText plane.ink body) ++
        [.write (x.toInt + (k + 1 + body.length : Nat)) y.toInt
          ⟨QuoteSide.closing.glyph, plane.ink⟩] := by
    have hlength : (Glyph.ofText plane.ink body).length = body.length := List.length_map _
    have hk : x.toInt + (k + 1 : Nat) = x.toInt + k + 1 := by omega
    have hend : x.toInt + (k + 1 + body.length : Nat) = x.toInt + k + 1 + body.length := by omega
    rw [List.cons_append, Mark.row, Mark.row_append, hlength, hk, hend]
    rfl
  rw [hrow]
  exact (hopening.append hbody).append hclosing

theorem marked_token (palettes : Palettes) {token : Token} {start : Nat}
    (hcolumn : token.column = textColumn token.kind start)
    (h : x.toInt + start + token.written.length ≤ greatest) (t : Terminal) :
    Marked (Mark.row (x.toInt + start) y.toInt (token.glyphs palettes)) t.plane
      (Surface.performAll (token.draw x y palettes) t).plane := by
  have hink : Marked [] t.plane (t.plane.setInk (palettes.slot token.kind)) :=
    marked_settings t.plane _ _ _ _ _
  unfold Token.written at h
  unfold textColumn at hcolumn
  unfold Token.draw Token.glyphs
  dsimp only
  by_cases hl : token.kind = .literal
  · rw [if_pos hl] at h hcolumn
    have hbody : x.toInt + start + (token.text.length + 2 : Nat) ≤ greatest := by
      rwa [List.length_append, List.length_cons, List.length_singleton] at h
    rw [if_pos hl, if_pos hl, hcolumn]
    exact hink.append (marked_literal hbody (t.plane.setInk (palettes.slot token.kind)))
  · rw [if_neg hl] at h hcolumn
    rw [if_neg hl, if_neg hl, hcolumn]
    exact hink.append (marked_text h (t.plane.setInk (palettes.slot token.kind)))

theorem marked_tokens (palettes : Palettes) {tokens : List Token} {start : Nat}
    (hside : SideBySide start tokens)
    (h : x.toInt + start + (tokens.flatMap Token.written).length ≤ greatest) (t : Terminal) :
    Marked (Mark.row (x.toInt + start) y.toInt (tokens.flatMap (Token.glyphs palettes))) t.plane
      (Surface.performAll (tokens.flatMap (Token.draw x y palettes)) t).plane := by
  induction tokens generalizing start t with
  | nil => exact marked_settings t.plane _ _ _ _ _
  | cons token rest ih =>
    obtain ⟨hcolumn, hrest⟩ := hside
    rw [List.flatMap_cons, List.length_append] at h
    have htoken := marked_token (x := x) (y := y) palettes hcolumn (by omega) t
    have htail := ih hrest (by omega) (Surface.performAll (token.draw x y palettes) t)
    have hnext : x.toInt + (start + token.written.length : Nat) =
        x.toInt + start + (token.glyphs palettes).length := by
      rw [length_glyphs]
      omega
    rw [hnext] at htail
    rw [List.flatMap_cons, List.flatMap_cons, Mark.row_append, Surface.performAll,
      List.foldl_append]
    exact htoken.append htail

theorem length_closed_le (line : List Char) : (closed line).length ≤ line.length + 1 := by
  unfold closed
  split
  · rw [List.length_append, List.length_singleton]
  · omega

theorem marked_draw {line : List Char} (h : x.toInt + (line.length + 1 : Nat) ≤ greatest)
    (palettes : Palettes) (t : Terminal) :
    Marked (Mark.row x.toInt y.toInt ((tokenize line).flatMap (Token.glyphs palettes))) t.plane
      (Surface.performAll (draw line x y palettes) t).plane := by
  have hlength := length_closed_le line
  rw [← written_tokenize] at hlength
  have hmarked := marked_tokens (x := x) (y := y) palettes (sideBySide_tokenize line)
    (by rw [Int.natCast_zero, Int.add_zero]; omega) t
  rwa [Int.natCast_zero, Int.add_zero] at hmarked

/-- Each character of a drawn line, closed, has a tile of its own, with the symbol and the slot that
the line tells for it and on the ground that was there. All other tiles are as they were. The words
for the columns are exact unless the line begins at the first column of all. -/
theorem shown_draw {line : List Char} (hline : Moderate line.length) {x : Int32}
    (hx : x.toInt ≤ 32767) (y : Int32) (palettes : Palettes) (t : Terminal) (column row : Int32) :
    let drawn := (Surface.performAll (draw line x y palettes) t).plane
    (least < x.toInt →
      ∀ r : Reckoning, r.code line x y palettes = some (draw line x y palettes)) ∧
    (∀ (k : Nat) (c : Char), (closed line)[k]? = some c → column.toInt = x.toInt + k → row = y →
      drawn.tile? column row = (t.plane.tile? column row).map fun tile =>
        ⟨symbolAt (closed line) k c, slotAt palettes (closed line) k c, tile.bg⟩) ∧
    ((row = y → ∀ k < (closed line).length, column.toInt ≠ x.toInt + k) →
      drawn.tile? column row = t.plane.tile? column row) := by
  intro drawn
  have hroom : x.toInt + (line.length + 1 : Nat) ≤ greatest := by
    unfold Moderate at hline
    unfold greatest
    omega
  have htiles := (marked_draw (y := y) hroom palettes t).tiles column row
  change drawn.tile? column row = _ at htiles
  rw [htiles]
  refine ⟨fun hleast r => code_eq r hleast (room_of_moderate hline (by omega) hx), ?_, ?_⟩
  · rintro k c hc hcolumn rfl
    rw [← written_tokenize] at hc ⊢
    have hglyph := getElem?_flatMap_glyphs palettes (fun _ => wellMade_tokenize)
      (apart_tokenize line) hc
    congr 1
    funext tile
    rw [hcolumn, Mark.foldl_row, hglyph]
    rfl
  · intro hother
    have hlength := length_flatMap_glyphs palettes (tokenize line)
    rw [written_tokenize] at hlength
    refine (Option.map_congr fun tile _ => Mark.foldl_row_elsewhere (fun hrow => ?_) tile).trans
      Option.map_id'
    rw [hlength]
    exact hother (Int32.toInt_inj.1 hrow)

def leftward : List Char := "Ab if \"é".toList

theorem leftward_drawn :
    let t := Surface.perform (.background 6 1 7 .full)
      (Terminal.start ⟨9, 6⟩ ⟨7, 2, 1, "", []⟩ .empty)
    let drawn := (Surface.performAll (draw leftward (-2) 1 .standard) t).plane
    Moderate leftward.length ∧ (-2 : Int32).toInt ≤ 32767 ∧
      Reckoning.exact.code leftward (-2) 1 .standard = some (draw leftward (-2) 1 .standard) ∧
      drawn.tile? 1 1 = some ⟨'i', 1, none⟩ ∧ drawn.tile? 6 1 = some ⟨'”', 3, some 7⟩ ∧
      drawn.tile? 5 0 = t.plane.tile? 5 0 := by
  intro t drawn
  have hline : Moderate leftward.length := by decide
  have hx : (-2 : Int32).toInt ≤ 32767 := by decide
  have hwords := (shown_draw hline hx 1 .standard t 0 0).1 (by decide) .exact
  have hletter := (shown_draw hline hx 1 .standard t 1 1).2.1 3 'i' (by decide) (by decide) rfl
  have hquote := (shown_draw hline hx 1 .standard t 6 1).2.1 8 '"' (by decide) (by decide) rfl
  have hother := (shown_draw hline hx 1 .standard t 5 0).2.2 fun h => absurd h (by decide)
  exact ⟨hline, hx, hwords, hletter.trans (by decide +kernel), hquote.trans (by decide +kernel),
    hother⟩

end TileDeck.Code
