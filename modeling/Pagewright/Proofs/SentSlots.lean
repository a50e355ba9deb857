import Pagewright.Proofs.ObjectTexts
import Pagewright.Proofs.SlotHistories
import Pagewright.Script.Process

/-!
# Slots sent back as updates

What an interpreter gets of a page is an object of all slots with their texts, and updates have the
same form. So the object may be sent back. Without the slots that describe the source file
(`PageSlots.authored`) it lays its slots over those of any page (`updateFrom_authored`,
`get?_writeAll_toList`), hence a page whose own slots they are does not change. With them it is
refused: updates count in the order of their names, the first of the three is the one that is named,
and the slots before it are written with the texts that they have (`updateFrom_slotsText_self`).
-/

namespace Pagewright

open Std Interpreter

/-- The write of a text to a slot. -/
def SlotWrite.ofText (m : String × String) : SlotWrite :=
  ⟨m.1, some m.2⟩

namespace PageSlots

/-- A page with its slots apart from those that describe the source file. -/
def authored (ps : PageSlots) : PageSlots :=
  { ps with values := ps.values.filter fun slot _ => !isSourceSlot slot }

variable {ps qs : PageSlots} {l : List (String × String)} {slot value : String}

/-! ## Slots in a list -/

theorem mem_toList_iff : (slot, value) ∈ ps.toList ↔ ps.get? slot = some value :=
  ExtTreeMap.mem_toList_iff_getElem?_eq_some

theorem pairwise_toList (ps : PageSlots) : ps.toList.Pairwise fun m m' => m.1 < m'.1 :=
  ExtTreeMap.ordered_keys_toList.imp compare_lt_iff_lt.1

theorem get?_authored (ps : PageSlots) (slot : String) :
    ps.authored.get? slot = if isSourceSlot slot then none else ps.get? slot := by
  simp only [get?, authored, ExtTreeMap.getElem?_filter, ExtTreeMap.getKey_eq,
    Option.pfilter_eq_filter]
  cases isSourceSlot slot with
  | true => simp
  | false => cases ps.values[slot]? <;> rfl

/-- The text of the slots of a page is read as updates of these slots, in the order of the names. -/
theorem updateFrom_slotsText (qs ps : PageSlots) :
    qs.updateFrom (slotsText ps) = qs.updateAll (Json.textMembers ps.toList) := by
  have hparse := Json.parseObject_compact (pairwise_toList ps)
  have htext : slotsText ps = (Json.object (Json.textMembers ps.toList)).compact := rfl
  rw [updateFrom, htext, hparse]

/-! ## Texts as writes -/

/-- Texts for slots that may be written are written one after another, before what follows them. -/
theorem updateAll_textMembers_append (hl : ∀ m ∈ l, IsWritable m.1) (qs : PageSlots)
    (members : List (String × Json)) : qs.updateAll (Json.textMembers l ++ members) =
      (qs.writeAll (l.map .ofText)).updateAll members := by
  induction l generalizing qs with
  | nil => rfl
  | cons m l ih =>
    have hset := set_eq_ok (hl m List.mem_cons_self) qs m.2
    rw [Json.textMembers, List.map_cons, List.cons_append, updateAll, update, hset]
    exact ih (fun m hm => hl m (List.mem_cons_of_mem _ hm)) _

theorem updateAll_textMembers (hl : ∀ m ∈ l, IsWritable m.1) (qs : PageSlots) :
    qs.updateAll (Json.textMembers l) = (qs.writeAll (l.map .ofText), .ok ()) := by
  have happend := updateAll_textMembers_append hl qs []
  rwa [List.append_nil] at happend

/-- Writing what a page has already changes nothing. -/
theorem writeAll_eq_self {ws : List SlotWrite} (h : ∀ w ∈ ws, ps.get? w.slot = w.text?) :
    ps.writeAll ws = ps := by
  induction ws with
  | nil => rfl
  | cons w ws ih =>
    have hwrite : ps.write w = ps := by
      refine eq_of_getElem? (shape_write ps w) (source_write ps w) fun slot => ?_
      rw [getElem?_write]
      split
      · next heq => rw [← heq, ← h w List.mem_cons_self, get?]
      · rfl
    rw [writeAll_cons, hwrite, ih fun v hv => h v (List.mem_cons_of_mem _ hv)]

theorem writeAll_eq_self_of_subset (h : ∀ m ∈ l, m ∈ ps.toList) :
    ps.writeAll (l.map .ofText) = ps := by
  refine writeAll_eq_self fun w hw => ?_
  obtain ⟨⟨slot, text⟩, hm, rfl⟩ := List.mem_map.1 hw
  exact mem_toList_iff.1 (h _ hm)

/-- The slots of a page count where it has any, and elsewhere those that were there before. -/
theorem get?_writeAll_toList (qs ps : PageSlots) (slot : String) :
    (qs.writeAll (ps.toList.map .ofText)).get? slot = (ps.get? slot).or (qs.get? slot) := by
  rw [get?, getElem?_writeAll]
  cases hlast : SlotWrite.last? slot (ps.toList.map .ofText) with
  | some w =>
    obtain ⟨hmem, rfl⟩ := SlotWrite.mem_of_last? hlast
    obtain ⟨⟨slot, text⟩, hm, rfl⟩ := List.mem_map.1 hmem
    have hvalue : ps.get? (SlotWrite.ofText (slot, text)).slot = some text := mem_toList_iff.1 hm
    rw [hvalue]
    rfl
  | none =>
    cases hvalue : ps.get? slot with
    | none => rfl
    | some text =>
      have hmem : SlotWrite.ofText (slot, text) ∈ ps.toList.map .ofText :=
        List.mem_map_of_mem (mem_toList_iff.2 hvalue)
      rw [SlotWrite.last?, List.findRev?_eq_find?_reverse, List.find?_eq_none] at hlast
      exact absurd (decide_eq_true rfl) (hlast _ (List.mem_reverse.2 hmem))

/-! ## Slots that come back -/

/-- Every slot that does not describe the source file has a lawful name. -/
def HasLawfulNames (ps : PageSlots) : Prop :=
  ∀ m ∈ ps.toList, isSourceSlot m.1 = false → namesSlot m.1 = true

instance : DecidablePred HasLawfulNames := fun ps =>
  inferInstanceAs (Decidable (∀ m ∈ ps.toList, isSourceSlot m.1 = false → namesSlot m.1 = true))

theorem mem_toList_authored_iff {m : String × String} :
    m ∈ ps.authored.toList ↔ m ∈ ps.toList ∧ isSourceSlot m.1 = false := by
  obtain ⟨slot, text⟩ := m
  rw [mem_toList_iff, mem_toList_iff, get?_authored]
  cases isSourceSlot slot <;> simp

theorem HasLawfulNames.isWritable (h : ps.HasLawfulNames) :
    ∀ m ∈ ps.authored.toList, IsWritable m.1 := by
  intro m hm
  obtain ⟨hmem, hsource⟩ := mem_toList_authored_iff.1 hm
  exact ⟨hsource, h m hmem hsource⟩

theorem HasLawfulNames.updateFrom_authored (h : ps.HasLawfulNames) (qs : PageSlots) :
    qs.updateFrom (slotsText ps.authored) =
      (qs.writeAll (ps.authored.toList.map .ofText), .ok ()) := by
  rw [updateFrom_slotsText, updateAll_textMembers h.isWritable]

/-- Of the slots that describe the source file none has a smaller name than the file's name. -/
theorem isSourceSlot_eq_false_of_lt (h : slot < fileNameSlot) : isSourceSlot slot = false := by
  have hne : ∀ other, ¬ other < fileNameSlot → slot ≠ other := by
    rintro other hother rfl
    exact hother h
  simp only [isSourceSlot, Bool.or_eq_false_iff, beq_eq_false_iff_ne]
  exact ⟨⟨hne _ (by decide), hne _ (by decide)⟩, hne _ (by decide)⟩

/-- **All slots sent back** are refused at the file's name, and nothing has changed until then. -/
theorem HasLawfulNames.updateFrom_slotsText_self (h : ps.HasLawfulNames)
    (hfile : ps.get? fileNameSlot = some value) :
    ps.updateFrom (slotsText ps) = (ps, .error (.slot (.describesSource fileNameSlot))) := by
  obtain ⟨before, after, hsplit⟩ := List.append_of_mem (mem_toList_iff.2 hfile)
  have hsorted := pairwise_toList ps
  rw [hsplit] at hsorted
  have hwritable : ∀ m ∈ before, IsWritable m.1 := by
    intro m hm
    have hlt : m.1 < fileNameSlot :=
      (List.pairwise_append.1 hsorted).2.2 m hm _ List.mem_cons_self
    have hsource := isSourceSlot_eq_false_of_lt hlt
    exact ⟨hsource, h m (by rw [hsplit]; exact List.mem_append_left _ hm) hsource⟩
  have hbefore : ps.writeAll (before.map .ofText) = ps := by
    refine writeAll_eq_self_of_subset fun m hm => ?_
    rw [hsplit]
    exact List.mem_append_left _ hm
  rw [updateFrom_slotsText, hsplit, Json.textMembers, List.map_append, ← Json.textMembers,
    updateAll_textMembers_append hwritable, hbefore]
  rfl

/-- **The slots of a page may be sent back**, whatever texts they have. Let the slots of a page that
do not describe its source file have lawful names. Without those that do, the object that an
interpreter gets of the page is taken by every page: the slots of the object have their texts there,
and all other slots, those of the source file among them, stay; so the page itself does not change.
With them the object is refused by the page itself for the name of the file, and the page does not
change either. -/
theorem sent_slots_come_back (s : Shape) (path : Path) (calls : List SlotCall) (qs : PageSlots)
    (hnames : ((new s path).performAll calls).HasLawfulNames) :
    let ps := (new s path).performAll calls
    (∃ rs, qs.updateFrom (slotsText ps.authored) = (rs, .ok ()) ∧ rs.shape = qs.shape ∧
        rs.source = qs.source ∧ ∀ slot, rs.get? slot =
          if isSourceSlot slot then qs.get? slot else (ps.get? slot).or (qs.get? slot)) ∧
      ps.updateFrom (slotsText ps.authored) = (ps, .ok ()) ∧
      ps.updateFrom (slotsText ps) = (ps, .error (.slot (.describesSource fileNameSlot))) := by
  intro ps
  have hheld : ps.HeldIn (activeShape s calls) path := (heldIn_new s path).performAll calls
  refine ⟨⟨_, hnames.updateFrom_authored qs, shape_writeAll _ _, source_writeAll _ _, ?_⟩, ?_, ?_⟩
  · intro slot
    rw [get?_writeAll_toList, get?_authored]
    cases isSourceSlot slot <;> rfl
  · rw [hnames.updateFrom_authored, writeAll_eq_self_of_subset]
    exact fun m hm => (mem_toList_authored_iff.1 hm).1
  · have hfile : ps.get? fileNameSlot = some (SourceFacts.ofPath path).fileName :=
      hheld.described fileNameSlot rfl
    exact hnames.updateFrom_slotsText_self hfile

/-- Quotes, back slashes, control characters and others come back on another page, which keeps the
slots that are not sent and its own source file. One of the slots comes before that of the file's
name. -/
theorem sent_slots_come_back_escapes :
    let title := "\"a\\b\"\n\x01é😀"
    let ps := (new .plainPage ⟨"/site/index.html"⟩).performAll [.set "title" title, .set "Name" ""]
    let qs := (new .plainPage ⟨"/site/other.html"⟩).performAll
      [.set "title" "Old", .set "layout" "wide"]
    ps.HasLawfulNames ∧
      (∃ rs, qs.updateFrom (slotsText ps.authored) = (rs, .ok ()) ∧ rs.get? "title" = some title ∧
        rs.get? "Name" = some "" ∧ rs.get? "layout" = some "wide" ∧
        rs.get? fileNameSlot = some "other.html") ∧
      ps.updateFrom (slotsText ps.authored) = (ps, .ok ()) ∧
      ps.updateFrom (slotsText ps) = (ps, .error (.slot (.describesSource fileNameSlot))) := by
  intro title ps qs
  have hnames : ps.HasLawfulNames := by decide +kernel
  obtain ⟨⟨rs, hupdate, -, -, hslots⟩, hself, hrefused⟩ := sent_slots_come_back .plainPage
    ⟨"/site/index.html"⟩ [.set "title" title, .set "Name" ""] qs hnames
  refine ⟨hnames, ⟨rs, hupdate, ?_, ?_, ?_, ?_⟩, hself, hrefused⟩
  all_goals
    rw [hslots]
    decide +kernel

end PageSlots

end Pagewright
