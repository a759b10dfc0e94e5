import TileDeck.Gallery
import TileDeck.Proofs.Entries
import TileDeck.Proofs.Markup.Fields
import Mathlib.Data.List.Nodup

set_option autoImplicit false

namespace TileDeck.Gallery

open Files (Node Fault)

def IsImage (file : String) : Prop := ∃ name, name ≠ "" ∧ file = name ++ ".txt"

theorem imageName?_eq_some {file name : String} :
    imageName? file = some name ↔ name ≠ "" ∧ file = name ++ ".txt" := by
  have hlong : ".txt".toList.length < (name ++ ".txt").toList.length ↔ name ≠ "" := by
    rw [String.toList_append, List.length_append, Nat.lt_add_left_iff_pos, List.length_pos_iff,
      ne_eq, String.toList_eq_nil_iff]
  unfold imageName?
  dsimp only
  rw [Option.ite_none_right_eq_some, Option.some_inj, List.isSuffixOf_iff_suffix]
  constructor
  · rintro ⟨⟨hsuffix, hlength⟩, rfl⟩
    have hfile : file = String.ofList (file.toList.take (file.toList.length - ".txt".toList.length)) ++
        ".txt" := by
      rw [← String.toList_inj, String.toList_append, String.toList_ofList]
      exact (List.suffix_iff_eq_append.1 hsuffix).symm
    exact ⟨hlong.1 (hfile ▸ hlength), hfile⟩
  · rintro ⟨hname, rfl⟩
    refine ⟨⟨?_, hlong.2 hname⟩, ?_⟩
    · rw [String.toList_append]
      exact List.suffix_append _ _
    · rw [String.toList_append, List.length_append, Nat.add_sub_cancel, List.take_left,
        String.ofList_toList]

theorem isSome_imageName? {file : String} : (imageName? file).isSome ↔ IsImage file := by
  simp only [Option.isSome_iff_exists, imageName?_eq_some, IsImage]

instance : DecidablePred IsImage := fun _ => decidable_of_iff _ isSome_imageName?

/-- An entry that can be taken in: it is no image file, or its text can be read. -/
def Loadable (entry : String × Node) : Prop := IsImage entry.1 → ∃ art, entry.2.text = .ok art

def image? (entry : String × Node) : Option (String × List String) :=
  (imageName? entry.1).bind fun name => entry.2.text.toOption.map fun art => (name, rows art)

variable {entries others : List (String × Node)} {entry : String × Node} {gallery loaded : Gallery}
  {image : String × List String}

theorem image?_eq_some :
    image? entry = some image ↔ image.1 ≠ "" ∧ entry.1 = image.1 ++ ".txt" ∧
      ∃ art, entry.2.text = .ok art ∧ image.2 = rows art := by
  have htext : ∀ art, entry.2.text.toOption = some art ↔ entry.2.text = .ok art := fun art => by
    cases entry.2.text <;> simp [Except.toOption]
  simp only [image?, Option.bind_eq_some_iff, Option.map_eq_some_iff, imageName?_eq_some, htext]
  constructor
  · rintro ⟨name, ⟨hname, hfile⟩, art, hart, rfl⟩
    exact ⟨hname, hfile, art, hart, rfl⟩
  · rintro ⟨hname, hfile, art, hart, hrows⟩
    exact ⟨image.1, ⟨hname, hfile⟩, art, hart, by rw [← hrows]⟩

theorem image?_eq_none (h : ¬IsImage entry.1) : image? entry = none :=
  Option.eq_none_iff_forall_ne_some.2 fun image himage =>
    h ⟨image.1, (image?_eq_some.1 himage).1, (image?_eq_some.1 himage).2.1⟩

theorem load_eq_ok (hnew : ∀ image ∈ gallery.images, image.1 ++ ".txt" ≠ entry.1) :
    load gallery entry = .ok loaded ↔
      Loadable entry ∧ loaded.images = (image? entry).toList ++ gallery.images := by
  have hmk : ∀ images, (Gallery.mk images = loaded ↔ loaded.images = images) := fun images => by
    cases loaded
    simp [eq_comm]
  unfold load
  cases hname : imageName? entry.1 with
  | none =>
    have hother : ¬IsImage entry.1 := by
      rw [← isSome_imageName?, hname]
      exact Bool.false_ne_true
    rw [image?_eq_none hother, Except.ok.injEq, Option.toList_none, List.nil_append, hmk]
    exact (and_iff_right fun h => absurd h hother).symm
  | some name =>
    obtain ⟨hne, hfile⟩ := imageName?_eq_some.1 hname
    cases htext : entry.2.text with
    | error fault =>
      have hunreadable : ¬Loadable entry := fun h => by
        obtain ⟨art, hart⟩ := h ⟨name, hne, hfile⟩
        rw [htext] at hart
        cases hart
      simp [hunreadable, Except.map]
    | ok art =>
      have himage : image? entry = some (name, rows art) :=
        image?_eq_some.2 ⟨hne, hfile, art, htext, rfl⟩
      have hkept : gallery.images.filter (·.1 ≠ name) = gallery.images :=
        List.filter_eq_self.2 fun image hm =>
          decide_eq_true fun h => hnew image hm (by rw [h, hfile])
      rw [himage, Option.toList_some, List.singleton_append]
      simp only [Except.map, Except.ok.injEq, insert, hkept, hmk]
      exact (and_iff_right fun _ => ⟨art, htext⟩).symm

theorem ofDirectory_concat (entries : List (String × Node)) (entry : String × Node) :
    ofDirectory (entries ++ [entry]) = ofDirectory entries >>= fun gallery => load gallery entry := by
  rw [ofDirectory, List.foldlM_append]
  simp only [List.foldlM_cons, List.foldlM_nil, bind_pure]
  rfl

theorem file_mem_of_image (h : image ∈ entries.filterMap image?) :
    image.1 ++ ".txt" ∈ entries.map Prod.fst := by
  obtain ⟨entry, hm, himage⟩ := List.mem_filterMap.1 h
  exact List.mem_map.2 ⟨entry, hm, (image?_eq_some.1 himage).2.1⟩

theorem ofDirectory_eq_ok (hnames : (entries.map Prod.fst).Nodup) :
    ofDirectory entries = .ok gallery ↔
      (∀ entry ∈ entries, Loadable entry) ∧ gallery.images = (entries.filterMap image?).reverse := by
  induction entries using List.reverseRecOn generalizing gallery with
  | nil =>
    cases gallery
    simp [ofDirectory, empty, pure, Except.pure, eq_comm]
  | append_singleton entries entry ih =>
    rw [List.map_append, List.nodup_append] at hnames
    obtain ⟨hbefore, -, hlast⟩ := hnames
    have hnew : ∀ image ∈ (entries.filterMap image?).reverse, image.1 ++ ".txt" ≠ entry.1 :=
      fun image hm => hlast _ (file_mem_of_image (List.mem_reverse.1 hm)) _
        (List.mem_map.2 ⟨entry, List.mem_singleton_self _, rfl⟩)
    have himages : ((entries ++ [entry]).filterMap image?).reverse =
        (image? entry).toList ++ (entries.filterMap image?).reverse := by
      rw [List.filterMap_append, List.reverse_append]
      cases h : image? entry <;> simp [h]
    rw [ofDirectory_concat, Markup.bind_eq_ok, List.forall_mem_append, List.forall_mem_singleton,
      himages]
    constructor
    · rintro ⟨held, hheld, hload⟩
      obtain ⟨hall, hsame⟩ := (ih hbefore).1 hheld
      rw [load_eq_ok (hsame ▸ hnew), hsame] at hload
      exact ⟨⟨hall, hload.1⟩, hload.2⟩
    · rintro ⟨⟨hall, hentry⟩, himages⟩
      exact ⟨⟨_⟩, (ih hbefore).2 ⟨hall, rfl⟩, (load_eq_ok hnew).2 ⟨hentry, himages⟩⟩

theorem exists_gallery (hnames : (entries.map Prod.fst).Nodup) :
    (∃ gallery, ofDirectory entries = .ok gallery) ↔ ∀ entry ∈ entries, Loadable entry := by
  simp only [ofDirectory_eq_ok hnames]
  exact ⟨fun ⟨_, h, _⟩ => h, fun h => ⟨⟨_⟩, h, rfl⟩⟩

theorem files_of_loadable (h : ∀ entry ∈ entries, Loadable entry) :
    (entries.filterMap image?).map (·.1 ++ ".txt") = (entries.map Prod.fst).filter (IsImage ·) := by
  induction entries with
  | nil => rfl
  | cons entry entries ih =>
    obtain ⟨hentry, hrest⟩ := List.forall_mem_cons.1 h
    rw [List.map_cons, List.filter_cons, ← ih hrest, List.filterMap_cons]
    by_cases hfile : IsImage entry.1
    · obtain ⟨art, hart⟩ := hentry hfile
      obtain ⟨name, hname, hfile'⟩ := hfile
      have himage : image? entry = some (name, rows art) :=
        image?_eq_some.2 ⟨hname, hfile', art, hart, rfl⟩
      rw [himage, if_pos (decide_eq_true ⟨name, hname, hfile'⟩), List.map_cons, hfile']
    · rw [image?_eq_none hfile, if_neg (by simpa using hfile)]

/-- A gallery with the images of a directory: one for each image file, under its name without the
extension, and no other. -/
structure Holds (gallery : Gallery) (entries : List (String × Node)) : Prop where
  files : (gallery.images.map (·.1 ++ ".txt")).Perm ((entries.map Prod.fst).filter (IsImage ·))
  names : (gallery.images.map Prod.fst).Nodup
  size : gallery.size = entries.countP (IsImage ·.1)
  get? : ∀ name image, gallery.get? name = some image ↔
    name ≠ "" ∧ ∃ node art, (name ++ ".txt", node) ∈ entries ∧ node.text = .ok art ∧ image = rows art

/-- Two answers that no one who asks for images can tell apart. -/
inductive Alike : Except Fault Gallery → Except Fault Gallery → Prop
  | failed (fault other : Fault) : Alike (.error fault) (.error other)
  | held {gallery other : Gallery} (size : gallery.size = other.size)
    (get? : ∀ name, gallery.get? name = other.get? name) : Alike (.ok gallery) (.ok other)

theorem holds_of_ofDirectory (hnames : (entries.map Prod.fst).Nodup)
    (h : ofDirectory entries = .ok gallery) : gallery.Holds entries := by
  obtain ⟨hall, himages⟩ := (ofDirectory_eq_ok hnames).1 h
  have hfiles : (gallery.images.map (·.1 ++ ".txt")).Perm
      ((entries.map Prod.fst).filter (IsImage ·)) := by
    rw [himages, List.map_reverse, ← files_of_loadable hall]
    exact List.reverse_perm _
  -- Equal names would be equal files, and the files are distinct.
  have hdistinct : (gallery.images.map Prod.fst).Nodup := by
    have hnodup := hfiles.nodup_iff.2 (hnames.filter _)
    refine List.Nodup.of_map (· ++ ".txt") ?_
    rwa [List.map_map]
  refine ⟨hfiles, hdistinct, ?_, fun name image => ?_⟩
  · rw [Gallery.size, ← List.length_map, hfiles.length_eq, ← List.countP_eq_length_filter,
      List.countP_map]
    rfl
  · rw [Gallery.get?, lookup_eq_some_iff_mem hdistinct, himages, List.mem_reverse,
      List.mem_filterMap]
    simp only [image?_eq_some]
    constructor
    · rintro ⟨⟨_, node⟩, hm, hname, rfl, art, hart, himage⟩
      exact ⟨hname, node, art, hm, hart, himage⟩
    · rintro ⟨hname, node, art, hm, hart, himage⟩
      exact ⟨_, hm, hname, rfl, art, hart, himage⟩

theorem Holds.alike {other : Gallery} (hperm : entries.Perm others) (h : gallery.Holds entries)
    (h' : other.Holds others) : Alike (.ok gallery) (.ok other) := by
  refine .held ?_ fun name => Option.ext fun image => ?_
  · rw [h.size, h'.size, hperm.countP_eq]
  · simp only [h.get?, h'.get?, hperm.mem_iff]

theorem get?_before {before after : List (String × Node)} {held : Gallery} {name : String}
    (hnames : ((before ++ entry :: after).map Prod.fst).Nodup) (hheld : ofDirectory before = .ok held)
    (hfile : entry.1 = name ++ ".txt") : held.get? name = none := by
  rw [List.map_append, List.nodup_append] at hnames
  obtain ⟨hbefore, -, hapart⟩ := hnames
  refine Option.eq_none_iff_forall_ne_some.2 fun image himage => ?_
  obtain ⟨-, node, -, hm, -, -⟩ := ((holds_of_ofDirectory hbefore hheld).get? name image).1 himage
  exact hapart _ (List.mem_map.2 ⟨_, hm, rfl⟩) _
    (List.mem_map.2 ⟨entry, List.mem_cons_self, rfl⟩) hfile.symm

/-- A directory gives a gallery just if all its image files can be read, and the gallery holds one image
for each of them. The order in which the entries are listed cannot be told from it, and no entry takes
the place of another. -/
theorem ofDirectory_perm (hnames : (entries.map Prod.fst).Nodup) (hperm : entries.Perm others) :
    ((∃ gallery, ofDirectory entries = .ok gallery) ↔ ∀ entry ∈ entries, Loadable entry) ∧
    Alike (ofDirectory entries) (ofDirectory others) ∧
    (∀ gallery, ofDirectory entries = .ok gallery → gallery.Holds entries) ∧
    ∀ before entry after held name, entries = before ++ entry :: after →
      ofDirectory before = .ok held → entry.1 = name ++ ".txt" → held.get? name = none := by
  have hothers : (others.map Prod.fst).Nodup := (hperm.map Prod.fst).nodup_iff.1 hnames
  have hboth : (∃ gallery, ofDirectory entries = .ok gallery) ↔
      ∃ other, ofDirectory others = .ok other := by
    simp only [exists_gallery hnames, exists_gallery hothers, hperm.mem_iff]
  refine ⟨exists_gallery hnames, ?_, fun gallery => holds_of_ofDirectory hnames, ?_⟩
  · cases hentries : ofDirectory entries with
    | ok gallery =>
      obtain ⟨other, hother⟩ := hboth.1 ⟨gallery, hentries⟩
      rw [hother]
      exact (holds_of_ofDirectory hnames hentries).alike hperm (holds_of_ofDirectory hothers hother)
    | error fault =>
      cases hother : ofDirectory others with
      | error fault' => exact .failed fault fault'
      | ok other =>
        obtain ⟨gallery, hgallery⟩ := hboth.2 ⟨other, hother⟩
        rw [hentries] at hgallery
        cases hgallery
  · rintro before entry after held name rfl hheld hfile
    exact get?_before hnames hheld hfile

theorem dotted_names :
    let entries : List (String × Node) :=
      [("logo.txt", .file "/\\\n\\/  \n".toUTF8), ("a.b.txt", .file "x".toUTF8),
        (".txt", .file ⟨#[0xFF]⟩), ("..txt", .file ByteArray.empty), ("notes.md", .directory [])]
    (entries.map Prod.fst).Nodup ∧ entries.Perm entries.reverse ∧
      ∃ gallery other, ofDirectory entries = .ok gallery ∧ ofDirectory entries.reverse = .ok other ∧
        gallery.size = 3 ∧ other.size = 3 ∧ other.get? "logo" = some ["/\\", "\\/"] ∧
        other.get? "a.b" = some ["x"] ∧ other.get? "." = some [] ∧ other.get? "" = none := by
  intro entries
  have hnames : (entries.map Prod.fst).Nodup := by decide
  have hperm : entries.Perm entries.reverse := (List.reverse_perm entries).symm
  have hloadable : ∀ entry ∈ entries, Loadable entry := by
    simp only [entries, List.forall_mem_cons]
    exact ⟨fun _ => ⟨_, rfl⟩, fun _ => ⟨_, rfl⟩, fun h => absurd h (by decide), fun _ => ⟨_, rfl⟩,
      fun h => absurd h (by decide), List.forall_mem_nil _⟩
  obtain ⟨hloads, halike, hholds, -⟩ := ofDirectory_perm hnames hperm
  obtain ⟨gallery, hgallery⟩ := hloads.2 hloadable
  have held := hholds gallery hgallery
  have hsize : gallery.size = 3 := held.size.trans (by decide)
  rw [hgallery] at halike
  cases hother : ofDirectory entries.reverse with
  | error fault =>
    rw [hother] at halike
    cases halike
  | ok other =>
    rw [hother] at halike
    cases halike with
    | held size get? =>
      refine ⟨hnames, hperm, gallery, other, hgallery, rfl, hsize, size.symm.trans hsize, ?_⟩
      simp only [← get?]
      refine ⟨(held.get? _ _).2 ⟨by decide, _, "/\\\n\\/  \n", .head _, rfl, by decide⟩,
        (held.get? _ _).2 ⟨by decide, _, "x", .tail _ (.head _), rfl, by decide⟩,
        (held.get? _ _).2 ⟨by decide, _, "", .tail _ (.tail _ (.tail _ (.head _))), rfl, by decide⟩, ?_⟩
      exact Option.eq_none_iff_forall_ne_some.2 fun image himage =>
        ((held.get? _ _).1 himage).1 rfl

end TileDeck.Gallery
