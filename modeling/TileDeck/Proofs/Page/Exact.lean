import TileDeck.Proofs.Code.Columns
import TileDeck.Proofs.Machine
import TileDeck.Proofs.Markup.Lengths
import TileDeck.Proofs.Page.Continuations
import TileDeck.Proofs.Plane.Exact

set_option autoImplicit false

/-!
# Exact pages

The parser bounds the coordinates of a command and the cursor keeps its column, so lines and images
of less than half the range leave room for every sum: no machine stops at a page of such lines for
want of a word, whatever is done with a count that is none.
-/
namespace TileDeck

open Coordinate Markup

/-- There is room for what is drawn, whatever the display puts there. -/
def Primitive.Modest : Primitive → Prop
  | .text x _ content => Room x content.length
  | .image x y name =>
    Field.Within (-32767) 32767 x ∧ Field.Within (-32767) 32767 y ∧ Moderate name.length
  | _ => True

theorem Primitive.modest_of_placed {p : Primitive} (h : p.place?.isSome) : p.Modest := by
  cases p with
  | text | image => cases h
  | _ => trivial

namespace Page

variable {r : Reckoning} {options : Options} {x y : Int32}

/-- What can be reckoned is the drawing of words, and modest. -/
structure Exact (drawn? : Option (List Primitive)) (ps : List Primitive) : Prop where
  eq : drawn? = some ps
  modest : ∀ p ∈ ps, p.Modest

def Wide (options : Options) : Prop := Field.Within 0 65535 options.columns

section Titles
variable (h : Wide options) {length : Nat} (hl : Moderate length)
include h hl

theorem difference?_columns : difference? options.columns (Int32.ofNat length) =
    some (options.columns - Int32.ofNat length) := by
  obtain ⟨hleast, hgreatest⟩ := h
  have hlength := toInt_of_moderate hl
  unfold Moderate at hl
  refine difference?_of_le ?_ ?_
  · rw [hlength]
    unfold least
    omega
  · rw [hlength]
    unfold greatest
    omega

theorem toInt_centred_le : (centred options.columns length).toInt ≤ 32767 := by
  obtain ⟨hleast, hgreatest⟩ := h
  have hrest := word?_eq_some.1 (difference?_columns ⟨hleast, hgreatest⟩ hl)
  rw [toInt_of_moderate hl] at hrest
  change (if _ ≤ _ then _ else _ : Int32).toInt ≤ 32767
  split
  · decide
  · have htwo : (2 : Int32).toInt = 2 := rfl
    rw [Int32.toInt_div_of_ne_right _ _ (by decide), hrest, htwo]
    -- division cuts towards zero, also where a title is too long for the plane
    calc
      (options.columns.toInt - length).tdiv 2 ≤ (65535 : Int).tdiv 2 :=
        Int.tdiv_le_tdiv (by decide) (by omega)
      _ = 32767 := by decide

end Titles

theorem exact_titleLine (h : Wide options) {text : String} (ht : Moderate text.length) :
    Exact (r.titleLine options text) (titleLine options text) := by
  have hroom : Room (centred options.columns text.length) text.length :=
    room_of_moderate ht (by omega) (toInt_centred_le h ht)
  constructor
  · rw [Reckoning.titleLine, count?_of_le r hroom.count, Option.bind_eq_bind, Option.bind_some,
      difference?_columns h ht]
    rfl
  · intro p hp
    obtain rfl := List.mem_singleton.1 hp
    exact hroom

theorem backgrounds_eq {text : String} (h : Room x text.length) (palette : PaletteId) :
    r.backgrounds x y palette text.length =
      some ((List.range (counted text)).map fun k =>
        .background (Code.columnAt x k) y palette .full) := by
  rw [Reckoning.backgrounds, count?_of_le r h.count, Option.bind_eq_bind, Option.bind_some]
  refine mapM_of_forall fun k hk => ?_
  have hcounted := counted_eq h.count
  rw [List.mem_range] at hk
  rw [counted] at hcounted
  rw [r.after?_of_room (h.mono (by omega))]
  rfl

theorem exact_textLine (hx : Field.Within (-32767) 32767 x) (bg : Option PaletteId)
    {text : String} (ht : Moderate text.length) :
    Exact (r.textLine x y bg text) (textLine x y bg text) := by
  have hroom : Room x text.length := room_of_moderate ht (by omega) hx.2
  constructor
  · unfold Reckoning.textLine textLine
    cases bg with
    | none => rfl
    | some palette =>
      rw [Option.elim_some, backgrounds_eq hroom, Option.toList_some, List.flatMap_singleton]
      rfl
  · intro p hp
    simp only [textLine, List.mem_append, List.mem_flatMap, List.mem_map, List.mem_singleton] at hp
    rcases hp with ⟨palette, _, k, _, rfl⟩ | rfl
    · trivial
    · exact hroom

theorem modest_token {token : Code.Token} (h : Room x (token.column + token.text.length))
    {palettes : Code.Palettes} {p : Primitive} (hp : p ∈ token.draw x y palettes) : p.Modest := by
  have hroom : Room (Code.columnAt x token.column) (String.ofList token.text).length := by
    rw [String.length_ofList]
    exact h.after
  rcases List.mem_cons.1 hp with rfl | hp
  · trivial
  · split at hp
    · simp only [List.mem_cons, List.not_mem_nil, or_false] at hp
      rcases hp with rfl | rfl | rfl
      · trivial
      · exact hroom
      · trivial
    · obtain rfl := List.mem_singleton.1 hp
      exact hroom

theorem exact_codeLine (hx : Field.Within (-32767) 32767 x) (ink : PaletteId) {code : String}
    (hc : Moderate code.length) :
    Exact (r.codeLine options ink x y code) (codeLine options ink x y code) := by
  have hroom : Room x (code.toList.length + 1) := by
    rw [String.length_toList]
    exact room_of_moderate hc (by omega) hx.2
  have hleast : least < x.toInt := by
    have := hx.1
    unfold least
    omega
  constructor
  · rw [Reckoning.codeLine, Code.code_eq r hleast hroom]
    rfl
  · intro p hp
    rcases List.mem_append.1 hp with hp | hp
    · obtain ⟨token, ht, hp⟩ := List.mem_flatMap.1 hp
      exact modest_token (hroom.mono (Code.end_le_tokenize ht)) hp
    · obtain rfl := List.mem_singleton.1 hp
      trivial

variable {σ : Type} [Surface σ] {stage : Stage σ}

theorem reckons_command (h : Wide options) {command : Command} (hv : command.Valid)
    (hc : ∀ content ∈ command.content?, Moderate content.length) (ink : PaletteId) :
    Reckons r options ink command := by
  cases command with
  | title text => exact (exact_titleLine h (hc text rfl)).eq
  | text x y bg text => exact (exact_textLine hv.1 bg (hc text rfl)).eq
  | code x y code => exact (exact_codeLine hv.1 ink (hc code rfl)).eq
  | _ => trivial

theorem modest_drawing (h : Wide options) {command : Command} (hv : command.Valid)
    (hc : ∀ content ∈ command.content?, Moderate content.length) {p : Primitive}
    (hp : p ∈ drawing options stage command) : p.Modest := by
  cases command with
  | title text => exact (exact_titleLine (r := .exact) h (hc text rfl)).modest p hp
  | text x y bg text => exact (exact_textLine (r := .exact) hv.1 bg (hc text rfl)).modest p hp
  | code x y code =>
    exact (exact_codeLine (r := .exact) hv.1 stage.ink (hc code rfl)).modest p hp
  | image x y name =>
    obtain rfl := List.mem_singleton.1 hp
    exact ⟨hv.1, hv.2.1, hc name rfl⟩
  | box => exact Primitive.modest_of_placed (Box.placed_draw hp)
  | arrow => exact Primitive.modest_of_placed (Arrow.placed_draw hp)
  | initProgress =>
    obtain ⟨told, _, rfl⟩ := List.mem_map.1 hp
    trivial
  | pause | scroll => cases hp
  | _ =>
    obtain rfl := List.mem_singleton.1 hp
    trivial

def Inside (cursor : Cursor) : Prop :=
  cursor.mode ≠ .none → Field.Within (-32767) 32767 cursor.x

omit [Surface σ] in
theorem exact_extension (r : Reckoning) (options : Options) (h : Inside stage.cursor)
    {text : String} (ht : Moderate text.length) :
    Extends r options stage.ink stage.cursor text ∧
      ∀ p ∈ extension options stage text, p.Modest := by
  unfold Inside at h
  unfold Extends extension
  cases hm : stage.cursor.mode with
  | none => exact ⟨trivial, List.forall_mem_nil _⟩
  | text bg =>
    rw [hm] at h
    have hexact := exact_textLine (r := r) (y := stage.cursor.y) (h (by simp)) bg ht
    exact ⟨hexact.eq, hexact.modest⟩
  | code =>
    rw [hm] at h
    have hexact := @exact_codeLine r options _ stage.cursor.y (h (by simp)) stage.ink _ ht
    exact ⟨hexact.eq, hexact.modest⟩

theorem inside_execute {command : Command} (hm : stage.cursor.mode = .none) (hv : command.Valid) :
    Inside (execute options stage command).2.cursor := by
  -- a text and a line of code leave the cursor in their own column, all else leaves it without mode
  have hp := points_execute options hm command
  unfold Inside
  cases command with
  | text x y bg text =>
    rw [show (execute options stage (.text x y bg text)).2.cursor = _ from hp]
    exact fun _ => hv.1
  | code x y code =>
    rw [show (execute options stage (.code x y code)).2.cursor = _ from hp]
    exact fun _ => hv.1
  | _ => exact fun hn => absurd hp hn

theorem inside_showLine (h : Inside stage.cursor) (number : Nat) (line : String) :
    Inside (showLine options number line stage).2.cursor := by
  unfold showLine
  split
  · exact h
  · rename_i text _
    obtain ⟨hm, hx⟩ := cursor_proceed options text stage
    unfold Inside
    rw [hm, hx]
    exact h
  · rename_i command hp
    exact inside_execute rfl (Command.valid_of_parse hp)
  · exact h

section Machine
variable {m : Machine σ} {I : σ → Prop} (hm : m.Goes Primitive.Modest I) (hw : Wide options)
include hm hw

theorem goes_showLine (hi : I stage.surface) (hc : Inside stage.cursor) {line : String}
    (hl : Moderate line.length) (number : Nat) :
    m.showLine options number line stage = some (showLine options number line stage) ∧
      I (showLine options number line stage).2.surface := by
  unfold Machine.showLine showLine
  rcases hp : Line.parse number line with fault | _ | command | text
  · exact ⟨rfl, hi⟩
  · exact ⟨rfl, hi⟩
  · have hv := Command.valid_of_parse hp
    have hcontent : ∀ content ∈ command.content?, Moderate content.length := fun content hmem =>
      Nat.lt_of_le_of_lt (length_content_le hp hmem) hl
    have hd : ∀ p ∈ drawing options { stage with cursor := stage.cursor.leave } command, p.Modest :=
      fun p => modest_drawing hw hv hcontent
    exact ⟨hm.execute trivial (reckons_command hw hv hcontent _) hd hi,
      kept_execute hm.kept trivial options _ command hd hi⟩
  · have ht : Moderate text.length := Nat.lt_of_le_of_lt (length_continuation_le hp) hl
    obtain ⟨hr, hd⟩ := exact_extension m.reckoning options hc ht
    exact ⟨congrArg (Option.bind · _) (hm.proceed hr hd hi),
      kept_proceed hm.kept options text stage hd hi⟩

theorem goes_showLines (hi : I stage.surface) (hc : Inside stage.cursor) {lines : List String}
    (hl : ∀ line ∈ lines, Moderate line.length) (number : Nat) :
    m.showLines options number stage lines = some (showLines options number stage lines) ∧
      I (showLines options number stage lines).2.surface := by
  induction lines generalizing number stage with
  | nil => exact ⟨rfl, hi⟩
  | cons line rest ih =>
    rw [List.forall_mem_cons] at hl
    obtain ⟨heq, hnext⟩ := goes_showLine hm hw hi hc hl.1 number
    have hinside := @inside_showLine options σ _ stage hc number line
    rw [Machine.showLines, heq]
    rcases showLine_cases options number line stage with ⟨next, hs⟩ | ⟨turn, next, hs⟩
    · rw [hs] at hnext hinside ⊢
      rw [showLines_onward hs]
      exact ih hnext hinside hl.2 (number + 1)
    · rw [hs] at hnext ⊢
      rw [showLines_ended hs]
      exact ⟨rfl, hnext⟩

/-- A page of short lines stops no machine that goes on with what is modest. -/
theorem goes_showPage (hi : I stage.surface) {text : String}
    (hl : ∀ line ∈ scriptLines text, Moderate line.length) :
    m.showPage options text stage = some (showPage options text stage) ∧
      I (showPage options text stage).2.surface := by
  have hinside : Inside (opened stage).cursor := fun hn => absurd rfl hn
  have ho : I (opened stage).surface := hi
  exact goes_showLines hm hw ho hinside hl 1

end Machine

end Page

/-- The images have less than half as many rows as there are coordinates after zero, and no row has
more characters than that. -/
def Gallery.Moderate (gallery : Gallery) : Prop :=
  ∀ image ∈ gallery.images, Coordinate.Moderate image.2.length ∧
    ∀ row ∈ image.2, Coordinate.Moderate row.length

namespace Terminal

/-- Only texts and images need sums of the terminal for what a page draws on it. Counts have to be
words here, too. -/
def textual : Machine Terminal where
  reckoning := .exact
  perform p t :=
    match p with
    | .text x y text => t.onPlane? (Reckoning.exact.putText x y text)
    | .image x y name => t.onPlane? (Reckoning.exact.putImage t.gallery x y name)
    | p => some (Surface.perform p t)
  nextFrame t := some (Surface.nextFrame t)
  agrees_perform p t := by
    cases p with
    | text x y text => exact agrees_onPlane (Reckoning.agrees_putText _ x y text t.plane)
    | image x y name =>
      exact agrees_onPlane (Reckoning.agrees_putImage _ t.gallery x y name t.plane)
    | _ => exact .always _
  agrees_nextFrame _ := .always _

theorem imageFits_of_moderate {gallery : Gallery} (h : gallery.Moderate) {x y : Int32}
    {name : String} (hp : (Primitive.image x y name).Modest) :
    Reckoning.exact.ImageFits gallery x y name := by
  obtain ⟨hx, hy, hn⟩ := hp
  unfold Reckoning.ImageFits
  cases hg : gallery.get? name with
  | some rows =>
    obtain ⟨before, after, himages, _⟩ := List.lookup_eq_some_iff.1 hg
    have hmem : (name, rows) ∈ gallery.images := by
      rw [himages]
      exact List.mem_append_right _ List.mem_cons_self
    obtain ⟨hcount, hrow⟩ := h _ hmem
    exact ⟨fun k hk => room_of_moderate hcount (Nat.le_add_right_of_le (Nat.le_of_lt hk)) hy.2,
      fun row hr k hk => room_of_moderate (hrow row hr) (by omega) hx.2⟩
  | none => exact fun k hk => room_of_moderate hn (by omega) hx.2

theorem goes_textual : textual.Goes Primitive.Modest fun t => t.gallery.Moderate where
  perform := by
    intro p t hp hg
    cases p with
    | text x y content =>
      have htext := (Reckoning.exact.answers_putText x y content t.plane).of_holds
        fun k hk => Room.mono hp (Nat.le_of_lt hk)
      exact congrArg (Option.bind · _) htext
    | image x y name =>
      have himage := (Reckoning.exact.answers_putImage t.gallery x y name t.plane).of_holds
        (imageFits_of_moderate hg hp)
      exact congrArg (Option.bind · _) himage
    | _ => rfl
  nextFrame _ := rfl
  drawn := by
    intro p t _ hg
    rw [(fixed_perform p t).gallery]
    exact hg
  shown := id

end Terminal

namespace Page

/-- A page, and a command of one, with each sum, difference and count that is made for it exact. -/
def showPage? (options : Options) (text : String) (stage : Stage Terminal) :
    Option (Flow × Stage Terminal) :=
  Terminal.textual.showPage options text stage

def execute? (options : Options) (stage : Stage Terminal) (command : Command) :
    Option (Flow × Stage Terminal) :=
  Terminal.textual.execute options stage command

def Fitted (options : Options) (plane : Plane) : Prop :=
  options.columns = Int32.ofNat plane.columns.toNat

theorem wide_of_fitted {options : Options} {plane : Plane} (h : Fitted options plane) :
    Wide options := by
  have hc : plane.columns.toNat < 65536 := plane.columns.toNat_lt
  have hcolumns : options.columns.toInt = plane.columns.toNat := by
    rw [h]
    exact toInt_ofNat (by unfold greatest; omega)
  constructor <;> omega

/-- A page with lines of less than half the range, shown on a terminal with images that small, is
shown alike with exact sums: no sum, difference or count of it goes round, however many lines go on
with a command and whatever its coordinates are. -/
theorem showPage_exact (options : Options) (text : String) (stage : Stage Terminal)
    (hcolumns : Fitted options stage.surface.plane)
    (hgallery : stage.surface.gallery.Moderate)
    (hlines : ∀ line ∈ scriptLines text, Moderate line.length) :
    showPage? options text stage = some (showPage options text stage) :=
  (goes_showPage Terminal.goes_textual (wide_of_fitted hcolumns) hgallery hlines).1

def summed : String := "title: a\ntxt,3,0,2: bc\nd\ncode,-1,2: e \"f\ng\nimage,1,4,h:"

theorem summed_exact :
    let options := { Options.standard with columns := 4 }
    let gallery := Gallery.empty.insert "h" "ij\nk"
    let stage := Stage.ready options 1 (.ofScript [])
      (Terminal.start ⟨4, 6⟩ ⟨4, 6, 1, "", []⟩ gallery)
    Fitted options stage.surface.plane ∧ stage.surface.gallery.Moderate ∧
    (∀ line ∈ scriptLines summed, Moderate line.length) ∧
    (showPage? options summed stage).map (fun shown => shown.2.surface.plane.textRows) =
      some ["   b", " a d", " “f”", "", " ij", " k"] ∧
    execute? options stage (.text 0x7FFFFFFF 0 none "ab") = none := by
  intro options gallery stage
  have hcolumns : Fitted options stage.surface.plane := rfl
  have hgallery : stage.surface.gallery.Moderate := by
    unfold Gallery.Moderate
    decide +kernel
  have hlines : ∀ line ∈ scriptLines summed, Moderate line.length := by decide
  have hexact := showPage_exact options summed stage hcolumns hgallery hlines
  refine ⟨hcolumns, hgallery, hlines, ?_, rfl⟩
  rw [hexact]
  decide +kernel

end Page

end TileDeck
