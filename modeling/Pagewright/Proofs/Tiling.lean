import Pagewright.Proofs.Blocks

/-!
# Blocks tile a document

The lines that a reading has gone over are the blocks of its finished components and, after them,
the lines of the open one (`Reached`); plain text is never open or last right after plain text. One
line keeps this (`Held.addLine`), hence every document that is read is a sequence of blocks
(`ofLines_eq_ok_iff`). A split into blocks is unique, since the components that the reading finishes
say where each block starts.
-/

namespace Pagewright

open Text
open Directive (ofLine IsPlain)

variable {shapes : ShapeTable}

/-! ## Blocks at the end -/

theorem Reads.append_reads {n : Nat} {bs bs' : List (List String)} {cs ds : List Component}
    (h : Reads shapes n bs cs) (h' : Reads shapes (n + bs.flatten.length) bs' ds) :
    Reads shapes n (bs ++ bs') (cs ++ ds) := by
  induction h with
  | nil => exact h'
  | @cons n b body kind bs cs head tail ih =>
    rw [List.flatten_cons, List.length_append, ← Nat.add_assoc] at h'
    exact .cons head (ih h')

theorem Reads.append {n : Nat} {bs : List (List String)} {cs : List Component} {b body : List String}
    {kind : ComponentKind} (h : Reads shapes n bs cs) (hb : BlockForm shapes b kind body) :
    Reads shapes n (bs ++ [b]) (cs ++ [.ofBlock (n + bs.flatten.length) kind body]) :=
  h.append_reads (.cons hb .nil)

theorem Apart.append {cs : List Component} {c : Component} (h : Apart cs)
    (hlast : c.kind = .plainText → ∀ d ∈ cs.getLast?, d.kind ≠ .plainText) : Apart (cs ++ [c]) := by
  refine List.isChain_append.2 ⟨h, List.isChain_singleton c, ?_⟩
  rintro d hd e he hkind hplain
  obtain rfl : c = e := by simpa using he
  exact hlast hplain d hd hkind

/-! ## The forms of finished components -/

/-- A directive on one line that takes effect is a block. -/
theorem blockForm_oneLine {line : String} {d : Directive} {n : Nat} {page page' : Page}
    (h : ofLine line = .ok (some d)) (honeLine : d.isOneLine = true)
    (heffect : (Component.ofDirective d n).withText.effect shapes page = .ok page') :
    BlockForm shapes [line] (Component.kindOf d) [] := by
  obtain ⟨-, -, hcheck⟩ := Directive.ofLine_eq_some_iff.1 h
  obtain ⟨-, hmarks, -, -, hform⟩ := Directive.check_eq_ok_iff.1 hcheck
  rw [Directive.checkForm_eq_ok_iff] at hform
  cases hk : d.kind with
  | slot =>
    have hkind : Component.kindOf d = .slot d.name .rendered := by
      simp [Component.kindOf, hk, hmarks honeLine]
    rw [hkind]
    exact .reference h hk honeLine
  | script =>
    rw [hk] at hform
    rw [hform.1] at honeLine
    cases honeLine
  | shape =>
    rw [hk] at hform
    obtain ⟨identifier, hvalue⟩ := Option.isSome_iff_exists.1 hform.2
    have hkind : Component.kindOf d = .shapeChoice d.name identifier := by
      simp [Component.kindOf, hk, hvalue]
    rw [hkind]
    refine .shapeChoice h hk hvalue ?_
    cases hs : shapes.get? identifier with
    | some s => rfl
    | none => simp [Component.effect, hkind, hs] at heffect

/-- An opening line, plain lines and a line that fits are a block. -/
theorem blockForm_section {opening closing : String} {body : List String} {d e : Directive} {n : Nat}
    (hopens : ofLine opening = .ok (some d)) (hstarts : d.startsSection = true)
    (hgoesOn : d.isOneLine = false) (hbody : ∀ l ∈ body, IsPlain l)
    (hcloses : ofLine closing = .ok (some e)) (hends : e.startsSection = false)
    (hfits : ((Component.ofDirective d n).pushAll body).checkClosing e = .ok ()) :
    BlockForm shapes (opening :: body ++ [closing]) (Component.kindOf d) body := by
  obtain ⟨-, -, hcheck⟩ := Directive.ofLine_eq_some_iff.1 hopens
  have hform := Directive.checkForm_eq_ok_iff.1 (Directive.check_eq_ok_iff.1 hcheck).2.2.2.2
  have hopen : d.endsSection = false := by simpa [Directive.isOneLine, hstarts] using hgoesOn
  rw [Component.checkClosing_eq_ok_iff, Component.kind_pushAll, Component.kind_ofDirective] at hfits
  cases hk : d.kind with
  | slot =>
    cases hc : d.endsComment with
    | true =>
      have hkind : Component.kindOf d = .slot d.name .rendered := by
        simp [Component.kindOf, hk, hc]
      rw [hkind] at hfits ⊢
      exact .rendered hopens hk hstarts hopen hc hbody hcloses hends hfits.2.1 hfits.2.2
    | false =>
      have hkind : Component.kindOf d = .slot d.name .commentOnly := by
        simp [Component.kindOf, hk, hc]
      rw [hkind] at hfits ⊢
      exact .commentOnly hopens hk hstarts hopen hc hbody hcloses hends hfits.2.1 hfits.2.2
  | script =>
    have hkind : Component.kindOf d = .script d.name := by simp [Component.kindOf, hk]
    rw [hkind] at hfits ⊢
    exact .script hopens hk hstarts hbody hcloses hends hfits
  | shape =>
    rw [hk] at hform
    rw [hform.1] at hgoesOn
    cases hgoesOn

/-! ## What a reading has gone over -/

/-- The lines of the open component, the first of which has the number. -/
inductive Pending (n : Nat) : List String → Option Component → Prop
  | idle : Pending n [] none
  | plainText {body : List String} (nonempty : body ≠ []) (plain : ∀ l ∈ body, IsPlain l) :
      Pending n body (some ((Component.plainText n).pushAll body))
  | opened {opening : String} {body : List String} {d : Directive}
      (opens : ofLine opening = .ok (some d)) (starts : d.startsSection = true)
      (goesOn : d.isOneLine = false) (plain : ∀ l ∈ body, IsPlain l) :
      Pending n (opening :: body) (some ((Component.ofDirective d n).pushAll body))

/-- The lines read are blocks, of which the finished components are, and those of the open one. -/
structure Reached (shapes : ShapeTable) (path : Path) (bs : List (List String))
    (rest : List String) (D : Draft) : Prop where
  reads : Reads shapes 1 bs D.finished
  apart : Apart D.finished
  pending : Pending (1 + bs.flatten.length) rest D.current
  page : D.page = (Page.start shapes path).after shapes D.finished

/-- What holds of a draft between two lines. -/
structure Held (shapes : ShapeTable) (path : Path) (ls : List String) (D : Draft) : Prop where
  reached : ∃ bs rest, bs.flatten ++ rest = ls ∧ Reached shapes path bs rest D
  /-- Plain text is not last, unless a section is open. -/
  last : (∀ c ∈ D.current, c.kind = .plainText) → ∀ d ∈ D.finished.getLast?, d.kind ≠ .plainText

theorem kindOf_ne_plainText (d : Directive) : Component.kindOf d ≠ .plainText := by
  unfold Component.kindOf
  cases d.kind <;> simp

variable {path : Path} {bs : List (List String)} {rest ls : List String} {D : Draft}

theorem Reached.finish {b body : List String} {kind : ComponentKind}
    (h : Reached shapes path bs rest D) (hb : BlockForm shapes b kind body)
    (hlast : kind = .plainText → ∀ d ∈ D.finished.getLast?, d.kind ≠ .plainText) :
    Reached shapes path (bs ++ [b]) []
      { finished := D.finished ++ [.ofBlock (1 + bs.flatten.length) kind body]
        current := none
        page := (Component.ofBlock (1 + bs.flatten.length) kind body).takeEffect shapes D.page } where
  reads := h.reads.append hb
  apart := h.apart.append hlast
  pending := .idle
  page := by rw [h.page, Page.after_append, Page.after_cons, Page.after_nil]

/-- A draft holds the lines of a block, no plain text, when it has gone over them. -/
theorem Reached.held_finish {b body : List String} {kind : ComponentKind} {page : Page}
    (h : Reached shapes path bs rest D) (hb : BlockForm shapes b kind body)
    (hkind : kind ≠ .plainText)
    (heffect : (Component.ofBlock (1 + bs.flatten.length) kind body).effect shapes D.page = .ok page) :
    Held shapes path (bs.flatten ++ b)
      { finished := D.finished ++ [.ofBlock (1 + bs.flatten.length) kind body]
        current := none
        page } := by
  refine ⟨⟨bs ++ [b], [], by simp, ?_⟩, fun _ c hc => ?_⟩
  · rw [← Component.takeEffect_eq_of_ok heffect]
    exact h.finish hb fun hplain => absurd hplain hkind
  · obtain rfl : _ = c := by simpa using hc
    exact hkind

/-- Finishing plain text keeps the lines that were read. -/
theorem Held.settle (h : Held shapes path ls D) :
    ∃ bs rest, bs.flatten ++ rest = ls ∧ Reached shapes path bs rest D.settle ∧
      ∀ c ∈ D.settle.current, c.kind ≠ .plainText := by
  obtain ⟨⟨bs, rest, hls, hreached⟩, hlast⟩ := h
  have hpending := hreached.pending
  generalize hc : D.current = current at hpending
  cases hpending with
  | idle =>
    rw [Draft.settle_of_none hc, hc]
    refine ⟨bs, [], hls, hreached, fun c hc => ?_⟩
    cases hc
  | plainText hne hplain =>
    have hsettle : D.settle =
        { finished := D.finished ++ [.ofBlock (1 + bs.flatten.length) .plainText rest]
          current := none
          page := (Component.ofBlock (1 + bs.flatten.length) .plainText rest).takeEffect shapes
            D.page } := by
      rw [Component.takeEffect_plainText rfl, Draft.settle_of_plainText hc rfl]
      rfl
    refine ⟨bs ++ [rest], [], by simpa using hls, ?_, ?_⟩
    · rw [hsettle]
      exact hreached.finish (.plainText hne hplain) fun _ => hlast (by simp [hc]; rfl)
    · rw [hsettle]
      intro c hc
      cases hc
  | opened opens starts goesOn plain =>
    rw [Draft.settle_of_not_plain hc (kindOf_ne_plainText _), hc]
    refine ⟨bs, _, hls, hreached, ?_⟩
    rintro c ⟨⟩
    exact kindOf_ne_plainText _

/-- A plain line goes to the open component or starts plain text. -/
theorem Held.addText {line : String} (h : Held shapes path ls D) (hline : IsPlain line) :
    Held shapes path (ls ++ [line]) (D.addText (1 + ls.length) line) := by
  obtain ⟨⟨bs, rest, rfl, hreached⟩, hlast⟩ := h
  obtain ⟨hreads, hapart, hpending, hpage⟩ := hreached
  have hplain : ∀ {body : List String}, (∀ l ∈ body, IsPlain l) →
      ∀ l ∈ body ++ [line], IsPlain l := by
    intro body hbody l hl
    rcases List.mem_append.1 hl with hl | hl
    · exact hbody l hl
    · rw [List.mem_singleton.1 hl]
      exact hline
  refine ⟨⟨bs, rest ++ [line], by simp, hreads, hapart, ?_, hpage⟩, ?_⟩
  · generalize hc : D.current = current at hpending
    simp only [Draft.addText, hc]
    cases hpending with
    | idle =>
      have hnew : ((none : Option Component).getD
          (.plainText (1 + (bs.flatten ++ []).length))).push line =
          (Component.plainText (1 + bs.flatten.length)).pushAll [line] := by
        rw [List.append_nil]
        rfl
      rw [hnew]
      exact .plainText (by simp) (hplain fun _ hl => absurd hl List.not_mem_nil)
    | plainText hne hbody =>
      rw [Option.getD_some, Component.push_pushAll]
      exact .plainText (by simp) (hplain hbody)
    | opened opens starts goesOn hbody =>
      rw [Option.getD_some, Component.push_pushAll]
      exact .opened opens starts goesOn (hplain hbody)
  · intro hkind d hd
    refine hlast ?_ d hd
    intro c hc
    have := hkind _ rfl
    rwa [hc, Option.getD_some, Component.kind_push] at this

/-- A directive finishes the open component, is a component of its own or opens one. -/
theorem Held.addDirective {line : String} {d : Directive} {D' : Draft}
    (h : Held shapes path ls D) (hline : ofLine line = .ok (some d))
    (hD' : D.addDirective shapes (1 + ls.length) d = .ok D') :
    Held shapes path (ls ++ [line]) D' := by
  obtain ⟨bs, rest, rfl, hreached, hnamed⟩ := h.settle
  rw [Draft.addDirective_eq] at hD'
  generalize D.settle = D at hreached hnamed hD'
  have hpending := hreached.pending
  cases Draft.addSettled_eq_ok_iff.1 hD' with
  | opens current starts goesOn =>
    rw [current] at hpending
    cases hpending
    rw [List.append_nil]
    refine ⟨⟨bs, [line], rfl, hreached.reads, hreached.apart, ?_, hreached.page⟩, ?_⟩
    · exact .opened hline starts goesOn fun _ hl => absurd hl List.not_mem_nil
    · exact fun hkind => absurd (hkind _ rfl) (kindOf_ne_plainText d)
  | oneLine current oneLine effect =>
    rw [current] at hpending
    cases hpending
    rw [List.append_nil] at effect ⊢
    exact hreached.held_finish (blockForm_oneLine hline oneLine effect) (kindOf_ne_plainText d) effect
  | @closes c page current ends fits effect =>
    rw [current] at hpending hnamed
    cases hpending with
    | plainText => exact absurd rfl (hnamed _ rfl)
    | @opened opening body e opens starts goesOn plain =>
      have hb : BlockForm shapes (opening :: body ++ [line]) (Component.kindOf e) body :=
        blockForm_section opens starts goesOn plain hline ends fits
      rw [List.append_assoc]
      exact hreached.held_finish hb (kindOf_ne_plainText e) effect

/-- **One line** keeps what holds of a draft. -/
theorem Held.addLine {line : String} {D' : Draft} (h : Held shapes path ls D)
    (hD' : D.addLine shapes (1 + ls.length) line = .ok D') : Held shapes path (ls ++ [line]) D' := by
  unfold Draft.addLine at hD'
  split at hD'
  · cases hD'
  · next hline =>
    obtain rfl := Except.ok.inj hD'
    exact h.addText hline
  · next d hline =>
    split at hD'
    · next D'' hadd =>
      obtain rfl := Except.ok.inj hD'
      exact h.addDirective hline hadd
    · cases hD'

theorem Held.addLines {ms : List String} {D' : Draft} (h : Held shapes path ls D)
    (hD' : D.addLines shapes (1 + ls.length) ms = .ok D') : Held shapes path (ls ++ ms) D' := by
  induction ms generalizing ls D with
  | nil =>
    obtain rfl := Except.ok.inj hD'
    simpa using h
  | cons line ms ih =>
    rw [Draft.addLines] at hD'
    split at hD'
    · next D₁ h₁ =>
      have hnext := ih (h.addLine h₁) (by rw [List.length_append]; exact hD')
      simpa using hnext
    · cases hD'

theorem Held.empty : Held shapes path [] (Draft.empty shapes path) where
  reached := ⟨[], [], rfl, .nil, List.isChain_nil, .idle, rfl⟩
  last := fun _ _ hd => nomatch hd

/-! ## Documents -/

/-- **Lines are read as a document exactly when they are its blocks**, no plain ones next to each
other; the page is the starting one after all components have taken effect. -/
theorem ofLines_eq_ok_iff {doc : Document} :
    Document.ofLines shapes path ls = .ok doc ↔
      ∃ bs, bs.flatten = ls ∧ Reads shapes 1 bs doc.components ∧ Apart doc.components ∧
        doc.path = path ∧ doc.page = (Page.start shapes path).after shapes doc.components := by
  constructor
  · intro h
    unfold Document.ofLines at h
    split at h
    · next D hD =>
      have hheld : Held shapes path ls D := Held.empty.addLines hD
      obtain ⟨bs, rest, hls, ⟨hreads, hapart, hpending, hpage⟩, -⟩ := hheld.settle
      unfold Draft.toDocument at h
      split at h
      · cases h
      · next hnone =>
        obtain rfl := Except.ok.inj h
        rw [hnone] at hpending
        cases hpending
        rw [Draft.page_settle] at hpage
        exact ⟨bs, by simpa using hls, hreads, hapart, rfl, hpage⟩
    · cases h
  · obtain ⟨docPath, components, page⟩ := doc
    rintro ⟨bs, rfl, hreads, hapart, rfl, hpage⟩
    rw [ofLines_of_reads hreads hapart, ← hpage]

/-! ## Splits into blocks -/

theorem Reads.apart_iff {n : Nat} {cs : List Component} (h : Reads shapes n bs cs) :
    Apart cs ↔ bs.IsChain fun b c => ¬ (IsPlainBlock b ∧ IsPlainBlock c) := by
  induction h with
  | nil => exact ⟨fun _ => List.isChain_nil, fun _ => List.isChain_nil⟩
  | @cons n b body kind bs cs head tail ih =>
    rw [Apart, List.isChain_cons, List.isChain_cons]
    refine and_congr ?_ ih
    cases tail with
    | nil => simp
    | cons head' tail' => simp [head.isPlainBlock_iff, head'.isPlainBlock_iff, Component.ofBlock]

theorem Reads.form {n : Nat} {cs : List Component} (h : Reads shapes n bs cs) :
    ∀ b ∈ bs, ∃ kind body, BlockForm shapes b kind body := by
  induction h with
  | nil => exact fun _ hb => nomatch hb
  | cons head tail ih =>
    intro b hb
    rcases List.mem_cons.1 hb with rfl | hb
    · exact ⟨_, _, head⟩
    · exact ih b hb

theorem exists_reads (n : Nat) (h : ∀ b ∈ bs, ∃ kind body, BlockForm shapes b kind body) :
    ∃ cs, Reads shapes n bs cs := by
  induction bs generalizing n with
  | nil => exact ⟨[], .nil⟩
  | cons b bs ih =>
    obtain ⟨kind, body, hb⟩ := h b List.mem_cons_self
    obtain ⟨cs, hcs⟩ := ih (n + b.length) fun b' hb' => h b' (List.mem_cons_of_mem _ hb')
    exact ⟨_, .cons hb hcs⟩

/-- The components say where the blocks start, hence which they are. -/
theorem Reads.unique {n : Nat} {bs' : List (List String)} {cs : List Component}
    (h : Reads shapes n bs cs) (h' : Reads shapes n bs' cs) (hls : bs.flatten = bs'.flatten) :
    bs = bs' := by
  induction h generalizing bs' with
  | nil => cases h'; rfl
  | @cons n b body kind bs cs head tail ih =>
    cases h' with
    | @cons _ b' _ _ bs' _ head' tail' =>
      rw [List.flatten_cons, List.flatten_cons] at hls
      cases cs with
      | nil =>
        cases tail
        cases tail'
        simpa using hls
      | cons c cs =>
        have hlength : b.length = b'.length := by
          have hstart : c.start = n + b.length := by cases tail; rfl
          have hstart' : c.start = n + b'.length := by cases tail'; rfl
          omega
        obtain ⟨rfl, hrest⟩ := List.append_inj hls hlength
        rw [ih tail' hrest]

/-- Every component stands where its block does. -/
theorem Reads.getElem? {n i : Nat} {cs : List Component} {b : List String} {c : Component}
    (h : Reads shapes n bs cs) (hb : bs[i]? = some b) (hc : cs[i]? = some c) :
    ∃ kind body, BlockForm shapes b kind body ∧
      c = .ofBlock (n + (bs.take i).flatten.length) kind body := by
  induction h generalizing i with
  | nil => cases hb
  | @cons n b' body kind bs cs head tail ih =>
    cases i with
    | zero =>
      obtain rfl : b' = b := by simpa using hb
      obtain rfl : _ = c := by simpa using hc
      exact ⟨kind, body, head, rfl⟩
    | succ i =>
      obtain ⟨kind', body', hform, hc'⟩ := ih (by simpa using hb) (by simpa using hc)
      refine ⟨kind', body', hform, ?_⟩
      rw [hc', List.take_succ_cons, List.flatten_cons, List.length_append, Nat.add_assoc]

theorem Reads.length_eq {n : Nat} {cs : List Component} (h : Reads shapes n bs cs) :
    cs.length = bs.length := by
  induction h with
  | nil => rfl
  | cons head tail ih => simp [ih]

theorem IsPlainBlock.filter_eq {b : List String} (h : IsPlainBlock b) :
    b.filter (IsPlain ·) = b :=
  List.filter_eq_self.2 fun l hl => decide_eq_true (h l hl)

/-- The lines between the markers of a block are its plain lines. -/
theorem BlockForm.body_eq_filter {b body : List String} {kind : ComponentKind}
    (h : BlockForm shapes b kind body) : body = b.filter (IsPlain ·) := by
  have hsection : ∀ {opening closing : String} {d e : Directive}, ofLine opening = .ok (some d) →
      IsPlainBlock body → ofLine closing = .ok (some e) →
      body = (opening :: body ++ [closing]).filter (IsPlain ·) := by
    intro opening closing d e hopens hbody hcloses
    simp [not_isPlain_of_ofLine hopens, not_isPlain_of_ofLine hcloses, hbody.filter_eq]
  cases h with
  | plainText _ plain => exact (IsPlainBlock.filter_eq plain).symm
  | reference reads => simp [not_isPlain_of_ofLine reads]
  | shapeChoice reads => simp [not_isPlain_of_ofLine reads]
  | rendered opens _ _ _ _ plain closes => exact hsection opens plain closes
  | commentOnly opens _ _ _ _ plain closes => exact hsection opens plain closes
  | script opens _ _ plain closes => exact hsection opens plain closes

theorem BlockForm.mem_of_mem_body {b body : List String} {kind : ComponentKind} {l : String}
    (h : BlockForm shapes b kind body) (hl : l ∈ body) : l ∈ b := by
  rw [h.body_eq_filter] at hl
  exact (List.mem_filter.1 hl).1

/-- Every component is that of one of the blocks. -/
theorem Reads.exists_block {n : Nat} {cs : List Component} (h : Reads shapes n bs cs) :
    ∀ c ∈ cs, ∃ b ∈ bs, BlockForm shapes b c.kind c.body.lines ∧
      c = .ofBlock c.start c.kind c.body.lines := by
  induction h with
  | nil => exact fun _ hc => nomatch hc
  | cons head tail ih =>
    intro c hc
    rcases List.mem_cons.1 hc with rfl | hc
    · exact ⟨_, List.mem_cons_self, head, rfl⟩
    · obtain ⟨b, hb, hform, hblock⟩ := ih c hc
      exact ⟨b, List.mem_cons_of_mem _ hb, hform, hblock⟩

/-- Every component stands with all the lines of its block in the document. -/
theorem Reads.exists_between {n : Nat} {cs : List Component} (h : Reads shapes n bs cs) :
    ∀ c ∈ cs, ∃ before b after, bs.flatten = before ++ b ++ after ∧ n + before.length = c.start ∧
      BlockForm shapes b c.kind c.body.lines := by
  induction h with
  | nil => exact fun _ hc => nomatch hc
  | @cons n b body kind bs cs head tail ih =>
    intro c hc
    rw [List.flatten_cons]
    rcases List.mem_cons.1 hc with rfl | hc
    · exact ⟨[], b, bs.flatten, rfl, rfl, head⟩
    · obtain ⟨before, b', after, hflatten, hstart, hform⟩ := ih c hc
      refine ⟨b ++ before, b', after, by simp [hflatten], ?_, hform⟩
      rw [List.length_append, ← Nat.add_assoc, hstart]

/-- **The block grammar.** A text is read as a document exactly when its lines split into blocks, no
two plain ones next to each other. There is one such split at most, and the components of the
document are its blocks in order: each starts at the first line of its block, has the form and the
plain lines of the block, and is finished with these lines as its text. The queue holds the scripts
among them in order, and the page is the one that they leave when they take effect in order. -/
theorem parse_iff_blocks (shapes : ShapeTable) (path : Path) (source : String) :
    ((∃ doc, Document.parse shapes path source = .ok doc) ↔
        ∃ bs, BlockSplit shapes (lines source) bs) ∧
      (∀ bs bs', BlockSplit shapes (lines source) bs → BlockSplit shapes (lines source) bs' →
        bs = bs') ∧
      ∀ doc bs, Document.parse shapes path source = .ok doc →
        BlockSplit shapes (lines source) bs →
        doc.components.length = bs.length ∧
          (∀ (i : Nat) (b : List String) (c : Component), bs[i]? = some b →
            doc.components[i]? = some c →
            c.start = 1 + (bs.take i).flatten.length ∧ BlockForm shapes b c.kind c.body.lines ∧
              c.body.lines = b.filter (IsPlain ·) ∧
              c.body.text? = some (joinLines c.body.lines)) ∧
          doc.scripts = doc.components.filterMap Component.pending? ∧
          doc.page = (Page.start shapes path).after shapes doc.components := by
  have hsplit : ∀ {bs}, BlockSplit shapes (lines source) bs →
      ∃ cs, Reads shapes 1 bs cs ∧ Document.parse shapes path source = .ok
        { path, components := cs, page := (Page.start shapes path).after shapes cs } := by
    rintro bs ⟨hflatten, hform, hapart⟩
    obtain ⟨cs, hreads⟩ := exists_reads 1 hform
    exact ⟨cs, hreads, ofLines_eq_ok_iff.2 ⟨bs, hflatten, hreads, hreads.apart_iff.2 hapart, rfl, rfl⟩⟩
  refine ⟨⟨?_, ?_⟩, ?_, ?_⟩
  · rintro ⟨doc, hdoc⟩
    obtain ⟨bs, hflatten, hreads, hapart, -, -⟩ := ofLines_eq_ok_iff.1 hdoc
    exact ⟨bs, hflatten, hreads.form, hreads.apart_iff.1 hapart⟩
  · rintro ⟨bs, hbs⟩
    obtain ⟨cs, -, hdoc⟩ := hsplit hbs
    exact ⟨_, hdoc⟩
  · intro bs bs' hbs hbs'
    obtain ⟨cs, hreads, hdoc⟩ := hsplit hbs
    obtain ⟨cs', hreads', hdoc'⟩ := hsplit hbs'
    obtain rfl : cs = cs' := by
      rw [hdoc] at hdoc'
      exact congrArg Document.components (Except.ok.inj hdoc')
    exact hreads.unique hreads' (hbs.flatten.trans hbs'.flatten.symm)
  · intro doc bs hdoc hbs
    obtain ⟨cs, hreads, hdoc'⟩ := hsplit hbs
    obtain rfl := Except.ok.inj (hdoc.symm.trans hdoc')
    refine ⟨hreads.length_eq, ?_, Page.scripts_after cs, rfl⟩
    intro i b c hb hc
    obtain ⟨kind, body, hform, rfl⟩ := hreads.getElem? hb hc
    exact ⟨rfl, hform, hform.body_eq_filter, rfl⟩

end Pagewright
