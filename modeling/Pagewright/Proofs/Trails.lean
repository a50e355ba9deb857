import Pagewright.Proofs.TreePaths

/-!
# The trail of a path

Where the steps of a path lead is a matter of the path alone: `arrival` is the location at their
end, `trail` lists the locations on the way. A walk along steps is a walk along their trail, and it
goes through exactly when all of the trail are directories (`walk_of_trail`, `walk_of_open`).
-/

namespace Pagewright

namespace FileTree

variable {t : FileTree} {p : Path} {l m : Location} {s : String} {ss ss' : List String}

/-- The location one step away, whether or not there is anything. -/
def stepTo (l : Location) (s : String) : Location :=
  if s = "." then l else if s = ".." then l.dropLast else l ++ [s]

/-- The location at the end of steps. -/
def arrival (l : Location) (ss : List String) : Location :=
  ss.foldl stepTo l

/-- The locations that steps lead through, both ends included. -/
def trail (l : Location) : List String → List Location
  | [] => [l]
  | s :: ss => l :: trail (stepTo l s) ss

/-- A step that may be taken from a directory. -/
def IsStep (s : String) : Prop :=
  s = "." ∨ s = ".." ∨ IsName s

/-! ## Locations -/

theorem stepTo_of_isName (h : IsName s) (l : Location) : stepTo l s = l ++ [s] := by
  rw [stepTo, if_neg h.ne_here, if_neg h.ne_up]

@[simp] theorem arrival_nil : arrival l [] = l := rfl

@[simp] theorem arrival_cons : arrival l (s :: ss) = arrival (stepTo l s) ss := rfl

@[simp] theorem mem_trail_nil : m ∈ trail l [] ↔ m = l := by
  simp [trail]

@[simp] theorem mem_trail_cons : m ∈ trail l (s :: ss) ↔ m = l ∨ m ∈ trail (stepTo l s) ss := by
  simp [trail]

theorem start_mem_trail : l ∈ trail l ss := by
  cases ss <;> simp

theorem arrival_mem_trail : arrival l ss ∈ trail l ss := by
  induction ss generalizing l with
  | nil => simp
  | cons s ss ih => exact mem_trail_cons.2 (.inr ih)

theorem mem_trail_append :
    m ∈ trail l (ss ++ ss') ↔ m ∈ trail l ss ∨ m ∈ trail (arrival l ss) ss' := by
  induction ss generalizing l with
  | nil =>
    rw [List.nil_append, mem_trail_nil, arrival_nil]
    exact ⟨.inr, fun h => h.elim (fun h => h ▸ start_mem_trail) id⟩
  | cons s ss ih => rw [List.cons_append, mem_trail_cons, mem_trail_cons, ih, or_assoc, arrival_cons]

theorem mem_trail_of_initial (h : ss <+: ss') (hm : m ∈ trail l ss) : m ∈ trail l ss' := by
  obtain ⟨rest, rfl⟩ := h
  exact mem_trail_append.2 (.inl hm)

theorem mem_trail_of_idle (h : ∀ s ∈ ss, s = ".") : m ∈ trail l ss ↔ m = l := by
  induction ss with
  | nil => simp
  | cons s ss ih =>
    have hstay : stepTo l s = l := by rw [h s List.mem_cons_self]; rfl
    rw [mem_trail_cons, hstay, ih fun s hs => h s (List.mem_cons_of_mem _ hs), or_self]

theorem trail_append_singleton (l : Location) (ss : List String) (s : String) :
    trail l (ss ++ [s]) = trail l ss ++ [stepTo (arrival l ss) s] := by
  induction ss generalizing l with
  | nil => rfl
  | cons r ss ih => rw [List.cons_append, trail, ih, trail, List.cons_append, arrival_cons]

/-! Steps that are names only go down. -/

theorem arrival_of_plain (h : ∀ s ∈ ss, s ≠ "." ∧ s ≠ "..") : arrival l ss = l ++ ss := by
  induction ss generalizing l with
  | nil => simp
  | cons s ss ih =>
    obtain ⟨hs, hss⟩ := List.forall_mem_cons.1 h
    rw [arrival_cons, ih hss, stepTo, if_neg hs.1, if_neg hs.2, List.append_assoc,
      List.singleton_append]

theorem mem_trail_iff_of_plain (h : ∀ s ∈ ss, s ≠ "." ∧ s ≠ "..") :
    m ∈ trail l ss ↔ ∃ ss', ss' <+: ss ∧ m = l ++ ss' := by
  induction ss generalizing l with
  | nil => simp
  | cons s ss ih =>
    obtain ⟨hs, hss⟩ := List.forall_mem_cons.1 h
    have hstep : stepTo l s = l ++ [s] := by rw [stepTo, if_neg hs.1, if_neg hs.2]
    rw [mem_trail_cons, hstep, ih hss]
    constructor
    · rintro (rfl | ⟨ss', hss', rfl⟩)
      · exact ⟨[], List.nil_prefix, (List.append_nil m).symm⟩
      · exact ⟨s :: ss', List.cons_prefix_cons.2 ⟨rfl, hss'⟩, by simp⟩
    · rintro ⟨ss', hss', rfl⟩
      rcases List.prefix_cons_iff.1 hss' with rfl | ⟨ss'', rfl, hss''⟩
      · exact .inl (List.append_nil l)
      · exact .inr ⟨ss'', hss'', by simp⟩

/-! ## Well-formed trees -/

theorem WF.get?_dropLast (h : t.WF) (hl : t.get? l = some .directory) :
    t.get? l.dropLast = some .directory := by
  rcases List.eq_nil_or_concat l with rfl | ⟨l, n, rfl⟩
  · rfl
  · rw [List.concat_eq_append] at hl ⊢
    rw [List.dropLast_concat]
    exact h l n _ hl

/-- All that is above a directory is a directory. -/
theorem WF.get?_of_prefix (h : t.WF) (hl : t.get? l = some .directory) (hm : m <+: l) :
    t.get? m = some .directory := by
  obtain ⟨rest, rfl⟩ := hm
  induction rest generalizing m with
  | nil => rwa [List.append_nil] at hl
  | cons n rest ih =>
    have hnext : t.get? (m ++ [n]) = some .directory := by
      refine ih ?_
      rwa [List.append_assoc, List.singleton_append]
    exact h m n _ hnext

theorem WF.insert_directory (h : t.WF) (hl : t.get? l = some .directory) (n : String) :
    (t.insert (l ++ [n]) .directory).WF := by
  intro m k e he
  rw [get?_insert (by simp)] at he ⊢
  split at he
  · next heq =>
    obtain ⟨rfl, -⟩ := List.append_inj' heq rfl
    rw [if_neg (by simp), hl]
  · have hm := h m k e he
    rw [hm]
    split <;> rfl

/-! ## Walks -/

theorem walk_eq_arrival (h : t.walk l ss = .ok m) : m = arrival l ss := by
  induction ss generalizing l with
  | nil => exact (Except.ok.inj h).symm
  | cons s ss ih =>
    rw [walk] at h
    split at h
    · next l' he =>
      obtain ⟨-, ⟨rfl, rfl⟩ | ⟨rfl, rfl⟩ | ⟨hname, -, rfl⟩⟩ := enter_eq_ok_iff.1 he
      · exact ih h
      · exact ih h
      · rw [arrival_cons, stepTo_of_isName hname]
        exact ih h
    · cases h

theorem enter_of_directory (hl : t.get? l = some .directory) (hs : IsStep s)
    (hm : t.get? (stepTo l s) = some .directory) : t.enter l s = .ok (stepTo l s) := by
  refine enter_eq_ok_iff.2 ⟨hl, ?_⟩
  rcases hs with rfl | rfl | hname
  · exact .inl ⟨rfl, rfl⟩
  · exact .inr (.inl ⟨rfl, rfl⟩)
  · rw [stepTo_of_isName hname] at hm ⊢
    exact .inr (.inr ⟨hname, by rw [hm]; rfl, rfl⟩)

/-- A walk along directories goes through. -/
theorem walk_of_trail (hsteps : ∀ s ∈ ss, IsStep s)
    (h : ∀ m ∈ trail l ss, t.get? m = some .directory) : t.walk l ss = .ok (arrival l ss) := by
  induction ss generalizing l with
  | nil => rfl
  | cons s ss ih =>
    have hrest : ∀ m ∈ trail (stepTo l s) ss, t.get? m = some .directory :=
      fun m hm => h m (mem_trail_cons.2 (.inr hm))
    rw [walk, enter_of_directory (h l start_mem_trail) (hsteps s List.mem_cons_self)
      (hrest _ start_mem_trail)]
    exact ih (fun s hs => hsteps s (List.mem_cons_of_mem _ hs)) hrest

/-- A walk to a directory goes along directories. -/
theorem trail_of_walk (h : t.walk l ss = .ok m) (hm : t.get? m = some .directory) :
    (∀ s ∈ ss, IsStep s) ∧ ∀ m ∈ trail l ss, t.get? m = some .directory := by
  induction ss generalizing l with
  | nil =>
    cases h
    exact ⟨nofun, fun m hmem => mem_trail_nil.1 hmem ▸ hm⟩
  | cons s ss ih =>
    have hl : t.get? l = some .directory := get?_of_walk h
    rw [walk] at h
    split at h
    · next l' he =>
      obtain ⟨hsteps, htrail⟩ := ih h
      have hstep : IsStep s ∧ l' = stepTo l s := by
        obtain ⟨-, ⟨rfl, rfl⟩ | ⟨rfl, rfl⟩ | ⟨hname, -, rfl⟩⟩ := enter_eq_ok_iff.1 he
        · exact ⟨.inl rfl, rfl⟩
        · exact ⟨.inr (.inl rfl), rfl⟩
        · exact ⟨.inr (.inr hname), (stepTo_of_isName hname l).symm⟩
      refine ⟨List.forall_mem_cons.2 ⟨hstep.1, hsteps⟩, fun m hmem => ?_⟩
      rcases mem_trail_cons.1 hmem with rfl | hmem
      · exact hl
      · exact htrail m (hstep.2 ▸ hmem)
    · cases h

/-- **A walk along a trail without files** finds directories only, or something is missing. -/
theorem walk_of_open (hwf : t.WF) (hl : t.get? l = some .directory) (hsteps : ∀ s ∈ ss, IsStep s)
    (h : ∀ m ∈ trail l ss, t.get? m = none ∨ t.get? m = some .directory) :
    (∀ m ∈ trail l ss, t.get? m = some .directory) ∨ t.walk l ss = .error .notFound := by
  induction ss generalizing l with
  | nil => exact .inl fun m hm => mem_trail_nil.1 hm ▸ hl
  | cons s ss ih =>
    have hs := hsteps s List.mem_cons_self
    rcases h (stepTo l s) (mem_trail_cons.2 (.inr start_mem_trail)) with hnone | hdirectory
    · have hname : IsName s := by
        rcases hs with rfl | rfl | hname
        · rw [show stepTo l "." = l from rfl, hl] at hnone
          cases hnone
        · rw [show stepTo l ".." = l.dropLast from rfl, hwf.get?_dropLast hl] at hnone
          cases hnone
        · exact hname
      rw [stepTo_of_isName hname] at hnone
      refine .inr ?_
      simp [walk, enter, hl, hname.ne_here, hname.ne_up, Nat.not_lt.2 hname.short, hnone]
    · rw [walk, enter_of_directory hl hs hdirectory]
      refine (ih hdirectory (fun s hs => hsteps s (List.mem_cons_of_mem _ hs))
        fun m hm => h m (mem_trail_cons.2 (.inr hm))).imp_left fun hrest m hm => ?_
      rcases mem_trail_cons.1 hm with rfl | hm
      · exact hl
      · exact hrest m hm

/-! ## Paths -/

section Paths

variable (hcheck : checkPath p = .ok ()) (hsteps : ∀ s ∈ stepsOf p, IsStep s)

include hcheck hsteps

/-- A path along directories denotes a directory. -/
theorem inspect_of_trail
    (h : ∀ m ∈ trail (t.origin p) (stepsOf p), t.get? m = some .directory) :
    t.inspect p = some .directory := by
  simp only [inspect, resolve, hcheck, walk_of_trail hsteps h, h _ arrival_mem_trail]
  rfl

theorem resolveParent_of_trail (hlast : stepsOf p = ss ++ [s])
    (h : ∀ m ∈ trail (t.origin p) ss, t.get? m = some .directory) :
    t.resolveParent p =
      .ok (arrival (t.origin p) ss, if s = "." ∨ s = ".." then .dots else .name s) := by
  have hwalk : t.walk (t.origin p) ss = .ok (arrival (t.origin p) ss) :=
    walk_of_trail (fun s hs => hsteps s (hlast ▸ List.mem_append_left _ hs)) h
  have hreverse : (stepsOf p).reverse = s :: ss.reverse := by rw [hlast]; simp
  simp only [resolveParent, hcheck, hreverse, List.reverse_reverse, hwalk, h _ arrival_mem_trail]
  split <;> rfl

end Paths

theorem inspect_eq_none {e : FileError} (h : t.walk (t.origin p) (stepsOf p) = .error e) :
    t.inspect p = none := by
  rw [inspect, resolve, h]
  cases checkPath p <;> rfl

theorem walk_of_resolve {e : Entry} (h : t.resolve p = .ok (l, e)) :
    t.walk (t.origin p) (stepsOf p) = .ok l ∧ t.get? l = some e := by
  unfold resolve at h
  split at h
  · cases h
  · split at h
    · cases h
    · next hwalk =>
      split at h
      · cases h
      · next hfile =>
        split at h
        · cases h
        · cases h
          exact ⟨hwalk, hfile⟩
      · next hdirectory =>
        cases h
        exact ⟨hwalk, hdirectory⟩

/-- What a path denotes is at the end of its trail. -/
theorem arrival_of_resolve {e : Entry} (h : t.resolve p = .ok (l, e)) :
    arrival (t.origin p) (stepsOf p) = l ∧ t.get? l = some e :=
  (walk_of_resolve h).imp_left fun hwalk => (walk_eq_arrival hwalk).symm

theorem get?_of_inspect {kind : EntryKind} (h : t.inspect p = some kind) :
    ∃ e, t.get? (arrival (t.origin p) (stepsOf p)) = some e ∧ e.kind = kind := by
  unfold inspect at h
  split at h
  · next l e hresolve =>
    obtain ⟨rfl, he⟩ := arrival_of_resolve hresolve
    exact ⟨e, he, Option.some.inj h⟩
  · cases h

end FileTree

end Pagewright
