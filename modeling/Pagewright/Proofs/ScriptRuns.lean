import Pagewright.Proofs.MemberOrder
import Pagewright.Proofs.Reread
import Pagewright.Proofs.Updates

/-!
# Runs of scripts that are their own updates

The scripts of a document that are their own updates take effect one after another, and each of them
member by member (`ScriptRun`, `MemberRun`). The first member that is refused ends the run, and so
does a text that writes no object: what was written before stays, and nothing after it is written
(`InOrder`). A run of a document is one of these, and no other (`runScripts_updates_iff`).
-/

namespace Pagewright

open Text

/-! ## One after another, up to the first failure -/

/-- What a list of things writes when they are done in order, where `Does a ws result` says what one
of them writes and how it ends. -/
inductive InOrder {α ε : Type} (Does : α → List SlotWrite → Except ε Unit → Prop) (as : List α) :
    List SlotWrite → Except ε Unit → Prop
  | completes {wss : List (List SlotWrite)}
      (all : List.Forall₂ (fun a ws => Does a ws (.ok ())) as wss) :
      InOrder Does as wss.flatten (.ok ())
  /-- The first thing that fails ends them all. -/
  | stops {before after : List α} {a : α} {wss : List (List SlotWrite)} {ws : List SlotWrite} {e : ε}
      (split : as = before ++ a :: after)
      (earlier : List.Forall₂ (fun a ws => Does a ws (.ok ())) before wss)
      (fails : Does a ws (.error e)) : InOrder Does as (wss.flatten ++ ws) (.error e)

section InOrder

variable {α ε : Type} {Does : α → List SlotWrite → Except ε Unit → Prop} {a : α} {as : List α}
  {ws : List SlotWrite} {result : Except ε Unit}

theorem inOrder_nil_iff : InOrder Does [] ws result ↔ ws = [] ∧ result = .ok () := by
  constructor
  · rintro (⟨⟨⟩⟩ | ⟨split, -, -⟩)
    · exact ⟨rfl, rfl⟩
    · simp at split
  · rintro ⟨rfl, rfl⟩
    exact @InOrder.completes _ _ Does [] [] .nil

/-- The first one fails, or it succeeds and the others come after it. -/
theorem inOrder_cons_iff : InOrder Does (a :: as) ws result ↔
    (∃ e, Does a ws (.error e) ∧ result = .error e) ∨
      ∃ ws₁ ws₂, Does a ws₁ (.ok ()) ∧ InOrder Does as ws₂ result ∧ ws = ws₁ ++ ws₂ := by
  constructor
  · rintro (⟨all⟩ | @⟨before, after, b, wss, ws, e, split, earlier, fails⟩)
    · cases all with
      | cons first rest => exact .inr ⟨_, _, first, .completes rest, List.flatten_cons⟩
    · cases earlier with
      | nil =>
        obtain ⟨rfl, rfl⟩ := List.cons_eq_cons.1 split
        exact .inl ⟨e, fails, rfl⟩
      | cons first rest =>
        obtain ⟨rfl, rfl⟩ := List.cons_eq_cons.1 split
        exact .inr ⟨_, _, first, .stops rfl rest fails, by rw [List.flatten_cons, List.append_assoc]⟩
  · rintro (⟨e, fails, rfl⟩ | ⟨ws₁, ws₂, first, rest, rfl⟩)
    · exact @InOrder.stops _ _ Does _ [] as a [] ws e rfl .nil fails
    · cases rest with
      | completes all =>
        rw [← List.flatten_cons]
        exact .completes (.cons first all)
      | @stops before after b wss ws e split earlier fails =>
        rw [← List.append_assoc, ← List.flatten_cons]
        exact .stops (by rw [split, List.cons_append]) (.cons first earlier) fails

/-- What is written in order, when `f` says what each thing writes and how it ends. -/
def untilFailure (f : α → List SlotWrite × Except ε Unit) : List α → List SlotWrite × Except ε Unit
  | [] => ([], .ok ())
  | a :: as =>
    match f a with
    | (ws, .ok _) => (ws ++ (untilFailure f as).1, (untilFailure f as).2)
    | (ws, .error e) => (ws, .error e)

theorem inOrder_iff_untilFailure {f : α → List SlotWrite × Except ε Unit}
    (hdoes : ∀ {a ws result}, Does a ws result ↔ f a = (ws, result)) :
    InOrder Does as ws result ↔ untilFailure f as = (ws, result) := by
  induction as generalizing ws result with
  | nil => rw [inOrder_nil_iff, untilFailure, Prod.mk.injEq, eq_comm, @eq_comm _ result]
  | cons a as ih =>
    rw [inOrder_cons_iff, untilFailure]
    simp only [hdoes, ih]
    rcases f a with ⟨ws₀, u | e₀⟩
    · constructor
      · rintro (⟨e, ⟨⟩, rfl⟩ | ⟨ws₁, ws₂, ⟨⟩, -⟩)
        rfl
      · rintro ⟨⟩
        exact .inl ⟨_, rfl, rfl⟩
    · constructor
      · rintro (⟨e, ⟨⟩, -⟩ | ⟨ws₁, ws₂, ⟨⟩, hrest, rfl⟩)
        rw [hrest]
      · rintro ⟨⟩
        exact .inr ⟨_, _, rfl, rfl, rfl⟩

end InOrder

/-! ## Members and scripts -/

/-- A value that a member may have: `null` takes a slot away, a text sets it. -/
def Json.IsUpdate (value : Json) : Prop :=
  value = .null ∨ ∃ text, value = .string text

/-- What one member of an object writes and how it ends. A value that is no update is refused first,
then a slot that describes the source file, then what is no slot name. -/
inductive MemberRun : String × Json → List SlotWrite → Except ScriptError Unit → Prop
  | clears {slot : String} (writable : IsWritable slot) :
      MemberRun (slot, .null) [⟨slot, none⟩] (.ok ())
  | sets {slot text : String} (writable : IsWritable slot) :
      MemberRun (slot, .string text) [⟨slot, some text⟩] (.ok ())
  | badValue {slot : String} {value : Json} (noUpdate : ¬ value.IsUpdate) :
      MemberRun (slot, value) [] (.error (.badValue slot value))
  | describesSource {slot : String} {value : Json} (update : value.IsUpdate)
      (source : isSourceSlot slot = true) :
      MemberRun (slot, value) [] (.error (.slot (.describesSource slot)))
  | unlawfulName {slot : String} {value : Json} (update : value.IsUpdate)
      (source : isSourceSlot slot = false) (name : namesSlot slot = false) :
      MemberRun (slot, value) [] (.error (.slot (.unlawfulName slot)))

/-- What one script writes and how it ends: the members of the object that it writes take effect in
the order of their keys, each key with its last value, and a failure names the line of the script. -/
inductive ScriptRun (script : PendingScript) : List SlotWrite → Except ScriptFailure Unit → Prop
  | noObject {fault : Json.Fault} (refused : Json.writtenMembers script.source = .error fault) :
      ScriptRun script [] (.error ⟨script.line, .json fault⟩)
  | succeeds {written members : List (String × Json)} {ws : List SlotWrite}
      (object : Json.writtenMembers script.source = .ok written)
      (sorts : Json.SortsMembers written members) (run : InOrder MemberRun members ws (.ok ())) :
      ScriptRun script ws (.ok ())
  | fails {written members : List (String × Json)} {ws : List SlotWrite} {cause : ScriptError}
      (object : Json.writtenMembers script.source = .ok written)
      (sorts : Json.SortsMembers written members) (run : InOrder MemberRun members ws (.error cause)) :
      ScriptRun script ws (.error ⟨script.line, cause⟩)

/-! ## Runs are what the scripts do -/

namespace SlotWrite

/-- The writes of one member and how it ends. -/
def ofMember (m : String × Json) : List SlotWrite × Except ScriptError Unit :=
  match ofUpdate m.1 m.2 with
  | .ok w => ([w], .ok ())
  | .error e => ([], .error e)

theorem ofMember_of_memberRun {m : String × Json} {ws : List SlotWrite}
    {result : Except ScriptError Unit} (h : MemberRun m ws result) : ofMember m = (ws, result) := by
  cases h with
  | clears writable => rw [ofMember, ofUpdate, PageSlots.permit_eq_ok_iff.2 writable]; rfl
  | sets writable => rw [ofMember, ofUpdate, PageSlots.permit_eq_ok_iff.2 writable]; rfl
  | @badValue slot value noUpdate =>
    cases value with
    | null => exact absurd (.inl rfl) noUpdate
    | string text => exact absurd (.inr ⟨text, rfl⟩) noUpdate
    | _ => rfl
  | describesSource update source =>
    have hpermit := PageSlots.permit_eq_error_iff.2 (.inl ⟨source, rfl⟩)
    rcases update with rfl | ⟨text, rfl⟩ <;> rw [ofMember, ofUpdate, hpermit] <;> rfl
  | unlawfulName update source name =>
    have hpermit := PageSlots.permit_eq_error_iff.2 (.inr ⟨source, name, rfl⟩)
    rcases update with rfl | ⟨text, rfl⟩ <;> rw [ofMember, ofUpdate, hpermit] <;> rfl

theorem exists_memberRun (m : String × Json) : ∃ ws result, MemberRun m ws result := by
  obtain ⟨slot, value⟩ := m
  by_cases hupdate : value.IsUpdate
  · cases hpermit : PageSlots.permit slot with
    | ok u =>
      have hwritable : IsWritable slot := PageSlots.permit_eq_ok_iff.1 hpermit
      rcases hupdate with rfl | ⟨text, rfl⟩
      · exact ⟨_, _, .clears hwritable⟩
      · exact ⟨_, _, .sets hwritable⟩
    | error refusal =>
      rcases PageSlots.permit_eq_error_iff.1 hpermit with ⟨hsource, -⟩ | ⟨hsource, hname, -⟩
      · exact ⟨_, _, .describesSource hupdate hsource⟩
      · exact ⟨_, _, .unlawfulName hupdate hsource hname⟩
  · exact ⟨_, _, .badValue hupdate⟩

/-- A member does one thing, what its update says. -/
theorem memberRun_iff {m : String × Json} {ws : List SlotWrite} {result : Except ScriptError Unit} :
    MemberRun m ws result ↔ ofMember m = (ws, result) := by
  refine ⟨ofMember_of_memberRun, fun h => ?_⟩
  obtain ⟨ws', result', hrun⟩ := exists_memberRun m
  rw [ofMember_of_memberRun hrun] at h
  cases h
  exact hrun

theorem ofUpdates_eq (ms : List (String × Json)) : ofUpdates ms = untilFailure ofMember ms := by
  induction ms with
  | nil => rfl
  | cons m ms ih =>
    rw [ofUpdates, untilFailure, ofMember, ← ih]
    cases ofUpdate m.1 m.2 <;> rfl

theorem inOrder_memberRun_iff {ms : List (String × Json)} {ws : List SlotWrite}
    {result : Except ScriptError Unit} :
    InOrder MemberRun ms ws result ↔ ofUpdates ms = (ws, result) := by
  rw [ofUpdates_eq]
  exact inOrder_iff_untilFailure memberRun_iff

/-- The writes of one script and how it ends. -/
def ofScript (script : PendingScript) : List SlotWrite × Except ScriptFailure Unit :=
  ((ofJson script.source).1, (ofJson script.source).2.mapError (⟨script.line, ·⟩))

theorem scriptRun_iff {script : PendingScript} {ws : List SlotWrite}
    {result : Except ScriptFailure Unit} :
    ScriptRun script ws result ↔ ofScript script = (ws, result) := by
  rw [ofScript, ofJson]
  constructor
  · rintro (⟨refused⟩ | ⟨object, sorts, run⟩ | ⟨object, sorts, run⟩)
    · rw [Json.parseObject_eq_error_iff.2 refused]
      rfl
    · rw [Json.parseObject_eq_ok_iff.2 ⟨_, object, sorts⟩]
      simp only [inOrder_memberRun_iff.1 run]
      rfl
    · rw [Json.parseObject_eq_ok_iff.2 ⟨_, object, sorts⟩]
      simp only [inOrder_memberRun_iff.1 run]
      rfl
  · cases hparse : Json.parseObject script.source with
    | error fault =>
      rintro ⟨⟩
      exact .noObject (Json.parseObject_eq_error_iff.1 hparse)
    | ok members =>
      obtain ⟨written, object, sorts⟩ := Json.parseObject_eq_ok_iff.1 hparse
      obtain ⟨ws', result', hmembers⟩ : ∃ ws' result', ofUpdates members = (ws', result') :=
        ⟨_, _, rfl⟩
      have hrun := inOrder_memberRun_iff.2 hmembers
      simp only [hmembers]
      cases result' with
      | ok u =>
        rintro ⟨⟩
        exact .succeeds object sorts hrun
      | error cause =>
        rintro ⟨⟩
        exact .fails object sorts hrun

theorem ofScripts_eq (scripts : List PendingScript) :
    ofScripts scripts = untilFailure ofScript scripts := by
  induction scripts with
  | nil => rfl
  | cons script scripts ih =>
    rw [ofScripts, untilFailure, ofScript, ← ih]
    rcases ofJson script.source with ⟨ws, e | u⟩ <;> rfl

theorem inOrder_scriptRun_iff {scripts : List PendingScript} {ws : List SlotWrite}
    {result : Except ScriptFailure Unit} :
    InOrder ScriptRun scripts ws result ↔ ofScripts scripts = (ws, result) := by
  rw [ofScripts_eq]
  exact inOrder_iff_untilFailure scriptRun_iff

end SlotWrite

/-! ## Where scripts stand -/

/-- The lines of a script stand in the document from its body line on. -/
theorem Reads.isPrefix_drop {shapes : ShapeTable} {n : Nat} {bs : List (List String)}
    {cs : List Component} (h : Reads shapes n bs cs) {c : Component} {keyword : String} (hc : c ∈ cs)
    (hkind : c.kind = .script keyword) :
    n ≤ c.start ∧ c.body.lines <+: bs.flatten.drop (c.bodyLine - n) := by
  induction h with
  | nil => cases hc
  | @cons n b body kind bs cs head tail ih =>
    rw [List.flatten_cons]
    rcases List.mem_cons.1 hc with rfl | hc
    · obtain rfl : kind = .script keyword := hkind
      refine ⟨le_rfl, ?_⟩
      cases head with
      | script =>
        rw [Component.bodyLine, Component.ofBlock, Nat.add_sub_cancel_left, List.cons_append,
          List.cons_append, List.drop_one, List.tail_cons, List.append_assoc]
        exact List.prefix_append _ _
    · obtain ⟨hstart, hprefix⟩ := ih hc
      refine ⟨(Nat.le_add_right _ _).trans hstart, ?_⟩
      have hdrop : c.bodyLine - n = b.length + (c.bodyLine - (n + b.length)) := by
        rw [Component.bodyLine]
        omega
      rwa [hdrop, List.drop_length_add_append]

/-! ## Runs of a document -/

section

variable {shapes : ShapeTable} {path : Path} {source : String} {doc : Document}

/-- **A run of scripts that are their own updates.** It always has an end, and it is the one in which
the scripts take effect in the order of the document, each member by member in the order of the keys,
up to the first that is refused: the slots have what was written before that and nothing else, and
the failure names the line of the script. The components and the queue stay. The queue lists the
scripts of the document in order, each with the text of its lines and the number of the first of
them. -/
theorem runScripts_updates_iff (hdoc : Document.parse shapes path source = .ok doc) :
    (∃ doc' result, doc.runScripts .updates = pure (doc', result)) ∧
      (∀ doc' result, doc.runScripts .updates = pure (doc', result) ↔
        ∃ ws, InOrder ScriptRun doc.scripts ws result ∧
          doc' = doc.withSlots (doc.slots.writeAll ws) ∧ doc'.components = doc.components ∧
            doc'.scripts = doc.scripts) ∧
      doc.scripts = doc.components.filterMap Component.pending? ∧
      ∀ c ∈ doc.components, ∀ script, c.pending? = some script →
        script.source = joinLines c.body.lines ∧ script.line = c.start + 1 ∧
          c.body.lines <+: (lines source).drop c.start := by
  obtain ⟨bs, hflatten, hreads, -, -, hpage⟩ := ofLines_eq_ok_iff.1 hdoc
  rw [Document.runScripts_updates]
  refine ⟨⟨_, _, rfl⟩, fun doc' result => ?_, ?_, ?_⟩
  · constructor
    · intro hrun
      obtain ⟨rfl, hresult⟩ := Prod.mk.inj (FileProgram.done.inj hrun)
      exact ⟨_, SlotWrite.inOrder_scriptRun_iff.2 (Prod.ext rfl hresult), rfl, rfl, rfl⟩
    · rintro ⟨ws, hws, rfl, -, -⟩
      rw [SlotWrite.inOrder_scriptRun_iff.1 hws]
  · rw [Document.scripts, hpage, Page.scripts_after]
    rfl
  · intro c hc script hscript
    unfold Component.pending? at hscript
    cases hkind : c.kind with
    | script keyword =>
      rw [hkind] at hscript
      obtain rfl := Option.some.inj hscript
      obtain ⟨b, -, -, hblock⟩ := hreads.exists_block c hc
      refine ⟨by rw [hblock]; rfl, rfl, ?_⟩
      rw [← hflatten]
      exact (hreads.isPrefix_drop hc hkind).2
    | plainText => rw [hkind] at hscript; cases hscript
    | shapeChoice keyword identifier => rw [hkind] at hscript; cases hscript
    | slot name display => rw [hkind] at hscript; cases hscript

/-- The second script sets a slot, with the last of two values, before a key that is refused; a
greater key that stands before it in the text and the third script have no effect. -/
theorem runScripts_updates_refused :
    let source := "<!-- [script\n\x7b\"b\": \"1\", \"a\": \"2\"\x7d\nscript] -->\n" ++
      "<!-- [script\n\x7b\"z\": \"9\", \"base_file_name\": null, \"a\": null,\n" ++
      "\"b\": 5, \"b\": \"3\"\x7d\nscript] -->\n<!-- [script\n\x7b\"c\": \"4\"\x7d\nscript] -->\n"
    ∃ doc, Document.parse .standard ⟨"/site/index.html"⟩ source = .ok doc ∧
      ∃ doc' cause, doc.runScripts .updates = pure (doc', .error ⟨5, cause⟩) ∧
        doc'.scripts = doc.scripts ∧ doc'.slots.get? "a" = none ∧ doc'.slots.get? "b" = some "3" ∧
        doc'.slots.get? "c" = none ∧ doc'.slots.get? "z" = none := by
  intro source
  have htest : ((Document.parse .standard ⟨"/site/index.html"⟩ source).toOption.any fun doc =>
      match SlotWrite.ofScripts doc.scripts with
      | (ws, .error failure) => decide (failure.line = 5 ∧
          ["a", "b", "c", "z"].map (doc.slots.writeAll ws).get? = [none, some "3", none, none])
      | _ => false) = true := by decide +kernel
  obtain ⟨doc, hdoc, htest⟩ := exists_ok_of_any htest
  obtain ⟨⟨doc', result, hrun⟩, hiff, -, -⟩ := runScripts_updates_iff hdoc
  obtain ⟨ws, hws, rfl, -, hscripts⟩ := (hiff doc' result).1 hrun
  rw [SlotWrite.inOrder_scriptRun_iff.1 hws] at htest
  cases result with
  | ok u => cases htest
  | error failure =>
    obtain ⟨line, cause⟩ := failure
    obtain ⟨rfl, hvalues⟩ := of_decide_eq_true htest
    simp only [List.map_cons, List.map_nil, List.cons.injEq, and_true] at hvalues
    exact ⟨doc, hdoc, _, cause, hrun, hscripts, hvalues⟩

end

end Pagewright
