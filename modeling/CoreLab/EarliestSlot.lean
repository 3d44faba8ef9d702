import CoreLab.Recommender
import Mathlib.Data.List.Pairwise

/-!
# CoreLab.EarliestSlot

What the sweep over one server is for: no slot in which enough cards are free
starts before the window that it returns.  Within one instant the free set dips and
rises, so a card counts as free for certain only between two instants.

* `countsAsFree_iff` — a card counts as free when every interval that began is
  followed by an end;
* `sweep_step` — one event, and what it does to the open candidate;
* `earliestWindowForServer_exact` — the sweep misses no earlier slot, stays in its
  window, and names free cards;
* `earliestWindowForServer_sound_iff` — when its candidate is free throughout, and
  can be booked;
* `slotsAreKept_of_separate` — so it is where no intervals touch and all cards are
  asked for.
-/

namespace CoreLab

open Loops

namespace EarliestSlot

/-! ## what is promised -/

/-- The busy intervals are not empty and lie in the window. -/
def WellFormed (req : SweepRequest) : Prop :=
  ∀ g ∈ req.gpuIds, ∀ b ∈ req.busyByGpu g, req.windowStart ≤ b.1 ∧ b.1 < b.2 ∧ b.2 ≤ req.windowEnd

instance (req : SweepRequest) : Decidable (WellFormed req) :=
  inferInstanceAs (Decidable (∀ g ∈ req.gpuIds, ∀ b ∈ req.busyByGpu g, _))

/-- The busy intervals are not empty and meet the window. -/
def Overlapping (req : SweepRequest) : Prop :=
  ∀ g ∈ req.gpuIds, ∀ b ∈ req.busyByGpu g,
    b.1 < b.2 ∧ b.1 < req.windowEnd ∧ req.windowStart < b.2

instance (req : SweepRequest) : Decidable (Overlapping req) :=
  inferInstanceAs (Decidable (∀ g ∈ req.gpuIds, ∀ b ∈ req.busyByGpu g, _))

theorem WellFormed.overlapping {req : SweepRequest} (h : WellFormed req) : Overlapping req := by
  intro g hg b hb
  obtain ⟨hfirst, hne, hlast⟩ := h g hg b hb
  exact ⟨hne, lt_of_lt_of_le hne hlast, lt_of_le_of_lt hfirst hne⟩

/-- The card is free from `s` on for the duration. -/
def FreeFrom (req : SweepRequest) (s : Time) (g : Nat) : Prop :=
  ∀ b ∈ req.busyByGpu g, ∀ t, s ≤ t → t < s + req.duration → b.contains t = false

/-- A slot in the window: some set of as many cards as asked is free during it. -/
structure Slot (req : SweepRequest) (s : Time) : Prop where
  start : req.windowStart ≤ s
  finish : s + req.duration ≤ req.windowEnd
  cards : ∃ S : Finset Nat, S ⊆ req.gpuIds.toFinset ∧ S.card = req.gpuCount ∧
    ∀ g ∈ S, FreeFrom req s g

/-- The intervals of a card are pairwise disjoint and do not touch. -/
def Separate (req : SweepRequest) : Prop :=
  ∀ g ∈ req.gpuIds, (req.busyByGpu g).Pairwise fun b b' => b.2 < b'.1 ∨ b'.2 < b.1

instance (req : SweepRequest) : Decidable (Separate req) :=
  inferInstanceAs (Decidable (∀ g ∈ req.gpuIds, (req.busyByGpu g).Pairwise _))

/-- The candidate names as many cards as asked, all free at its start. -/
structure NamesFreeCards (req : SweepRequest) (c : CandidateWindow) : Prop where
  count : c.gpuIds.length = req.gpuCount
  nodup : c.gpuIds.Nodup
  cards : ∀ g ∈ c.gpuIds, g ∈ req.gpuIds
  free : ∀ g ∈ c.gpuIds, ∀ b ∈ req.busyByGpu g, b.contains c.startAt = false

/-- Every interval of the card that has begun by `t` is followed by an end that has come by
then, which need not be its own. -/
def LooksFree (req : SweepRequest) (t : Time) (g : Nat) : Prop :=
  ∀ b ∈ req.busyByGpu g, b.1 ≤ t → ∃ b' ∈ req.busyByGpu g, b.1 ≤ b'.2 ∧ b'.2 ≤ t

/-- Every interval of the card that has begun by `t` is followed by an end before `t`. -/
def LooksFreeAcross (req : SweepRequest) (t : Time) (g : Nat) : Prop :=
  ∀ b ∈ req.busyByGpu g, b.1 ≤ t → ∃ b' ∈ req.busyByGpu g, b.1 ≤ b'.2 ∧ b'.2 < t

instance (req : SweepRequest) (t : Time) : DecidablePred (LooksFree req t) :=
  fun g => inferInstanceAs (Decidable (∀ b ∈ req.busyByGpu g, _))

instance (req : SweepRequest) (t : Time) : DecidablePred (LooksFreeAcross req t) :=
  fun g => inferInstanceAs (Decidable (∀ b ∈ req.busyByGpu g, _))

/-- A slot in the window in which enough cards look free, from instant to instant. -/
structure LooksSlot (req : SweepRequest) (s : Time) : Prop where
  start : req.windowStart ≤ s
  finish : s + req.duration ≤ req.windowEnd
  opens : req.gpuCount ≤ (req.gpuIds.filter (LooksFree req s)).length
  stays : ∀ t, s < t → t < s + req.duration →
    req.gpuCount ≤ (req.gpuIds.filter (LooksFreeAcross req t)).length

/-- A slot in the window at whose start enough cards are free, the first of which stay free. -/
structure FirstFreeStay (req : SweepRequest) (s : Time) : Prop where
  start : req.windowStart ≤ s
  finish : s + req.duration ≤ req.windowEnd
  count : req.gpuCount ≤ (req.freeAt s).length
  stay : ∀ g ∈ (req.freeAt s).take req.gpuCount, FreeFrom req s g

/-- No slot looks free before the first one whose first free cards stay free. -/
def SlotsAreKept (req : SweepRequest) : Prop :=
  ∀ s, LooksSlot req s → ∃ s' ≤ s, FirstFreeStay req s'

/-- The sweep is exact. -/
structure Exact (req : SweepRequest) : Prop where
  earlier : ∀ s, Slot req s → ∃ c, earliestWindowForServer req = some c ∧ c.startAt ≤ s
  window : ∀ c, earliestWindowForServer req = some c →
    req.windowStart ≤ c.startAt ∧ c.endAt = c.startAt + req.duration ∧ c.endAt ≤ req.windowEnd
  named : req.gpuIds.Nodup → Separate req → ∀ c, earliestWindowForServer req = some c →
    NamesFreeCards req c

/-! ## the events in order -/

section Events

variable {req : SweepRequest} {past rest : List Event} {e : Event} {g : Nat} {s : Time}

theorem mem_events : e ∈ req.events ↔
    ∃ g ∈ req.gpuIds, ∃ b ∈ req.busyByGpu g, e = ⟨b.1, -1, g⟩ ∨ e = ⟨b.2, 1, g⟩ := by
  simp only [SweepRequest.events, List.mem_insertionSort, List.mem_flatMap, List.mem_cons,
    List.not_mem_nil, or_false]

instance : Std.Total Event.before :=
  ⟨fun a b => by grind [Event.before]⟩

instance : IsTrans Event Event.before :=
  ⟨fun a b c => by grind [Event.before]⟩

theorem pairwise_events (req : SweepRequest) : req.events.Pairwise Event.before :=
  List.pairwise_insertionSort _ _

/-- An event that is applied comes before the ones that are left. -/
theorem before_of_split (hsplit : past ++ rest = req.events) {f : Event} (he : e ∈ past)
    (hf : f ∈ rest) : e.before f := by
  have hsorted := pairwise_events req
  rw [← hsplit] at hsorted
  exact (List.pairwise_append.mp hsorted).2.2 e he f hf

/-- The events up to one of them are not later. -/
theorem time_le_of_split (hsplit : past ++ e :: rest = req.events) {f : Event}
    (hf : f ∈ past ++ [e]) : f.time ≤ e.time := by
  rcases List.mem_append.mp hf with hf | hf
  · have hfe := before_of_split hsplit hf List.mem_cons_self
    grind [Event.before]
  · rw [List.mem_singleton.mp hf]

/-- No applied event of a card comes after its last one. -/
theorem before_last (hsplit : past ++ rest = req.events) {l : Event}
    (hlast : (past.filter fun e => e.gpuId = g).getLast? = some l) {f : Event} (hf : f ∈ past)
    (hg : f.gpuId = g) : f = l ∨ f.before l := by
  have hsorted := pairwise_events req
  rw [← hsplit] at hsorted
  have hpast := ((List.pairwise_append.mp hsorted).1).filter (fun e => decide (e.gpuId = g))
  have hmem : f ∈ past.filter fun e => decide (e.gpuId = g) :=
    List.mem_filter.mpr ⟨hf, decide_eq_true hg⟩
  rw [← List.dropLast_append_getLast? l hlast] at hpast hmem
  rcases List.mem_append.mp hmem with hinit | hl
  · exact Or.inr ((List.pairwise_append.mp hpast).2.2 f hinit l List.mem_cons_self)
  · exact Or.inl (List.mem_singleton.mp hl)

/-- An event was applied if it is on the early side of a split. -/
theorem mem_past_iff {p : Event → Prop} (hsplit : past ++ rest = req.events)
    (hpast : ∀ e ∈ past, p e) (hrest : ∀ e ∈ rest, ¬ p e) (he : e ∈ req.events) :
    e ∈ past ↔ p e := by
  rw [← hsplit, List.mem_append] at he
  refine ⟨hpast e, fun hp => he.resolve_right fun h => hrest e h hp⟩

/-- The events that come before an instant are a beginning of them all. -/
theorem exists_split (req : SweepRequest) {p : Event → Prop} (hp : ∀ e f, e.before f → p f → p e) :
    ∃ past rest, past ++ rest = req.events ∧ (∀ e ∈ past, p e) ∧ ∀ e ∈ rest, ¬ p e := by
  have hsorted := pairwise_events req
  generalize req.events = l at hsorted
  induction l with
  | nil => exact ⟨[], [], rfl, (fun e he => by cases he), fun e he => by cases he⟩
  | cons e l ih =>
      obtain ⟨hfirst, hsorted⟩ := List.pairwise_cons.mp hsorted
      by_cases he : p e
      · obtain ⟨past, rest, rfl, hpast, hrest⟩ := ih hsorted
        refine ⟨e :: past, rest, rfl, fun f hf => ?_, hrest⟩
        rcases List.mem_cons.mp hf with rfl | hf
        · exact he
        · exact hpast f hf
      · refine ⟨[], e :: l, rfl, (fun f hf => by cases hf), fun f hf hf' => ?_⟩
        rcases List.mem_cons.mp hf with rfl | hf
        · exact he hf'
        · exact he (hp e f (hfirst f hf) hf')

/-- A beginning of the events that is on the early side of a split is a beginning of that side. -/
theorem prefix_past {p : Event → Prop} (hsplit : past ++ rest = req.events)
    (hrest : ∀ e ∈ rest, ¬ p e) {l : List Event} (hl : l <+: req.events) (hp : ∀ e ∈ l, p e) :
    l <+: past := by
  rw [← hsplit] at hl
  rcases List.prefix_or_prefix_of_prefix hl (List.prefix_append past rest) with h | ⟨x, rfl⟩
  · exact h
  · have hx := (List.prefix_append_right_inj past).mp hl
    cases x with
    | nil => simp
    | cons e x =>
        have he : e ∈ rest := hx.subset List.mem_cons_self
        exact absurd (hp e (by simp)) (hrest e he)

/-- The last applied event of a card. -/
theorem mem_of_last {l : Event} (hlast : (past.filter fun e => e.gpuId = g).getLast? = some l) :
    l ∈ past ∧ l.gpuId = g := by
  have hmem := List.mem_of_getLast? hlast
  exact ⟨List.mem_of_mem_filter hmem, by simpa using (List.mem_filter.mp hmem).2⟩

end Events

/-! ## what counts as free, and what is -/

section Free

variable {req : SweepRequest} {past rest : List Event} {g : Nat} {s : Time}

/-- Enough cards count as free. -/
def Enough (req : SweepRequest) (past : List Event) : Prop :=
  req.gpuCount ≤ (req.freeAfter past).card

instance (req : SweepRequest) (past : List Event) : Decidable (Enough req past) :=
  inferInstanceAs (Decidable (_ ≤ _))

theorem contains_iff {t : Time} {b : Busy} : b.contains t = true ↔ b.1 ≤ t ∧ t < b.2 := by
  rw [Busy.contains, Bool.and_eq_true, decide_eq_true_eq, decide_eq_true_eq]

/-- An interval misses a slot if it is over before the slot or begins after it. -/
theorem outside_of_freeFrom (hpos : 0 < req.duration) (hfree : FreeFrom req s g) {b : Busy}
    (hb : b ∈ req.busyByGpu g) (hne : b.1 < b.2) : b.2 ≤ s ∨ s + req.duration ≤ b.1 := by
  by_contra hmeets
  obtain ⟨hafter, hbefore⟩ := not_or.mp hmeets
  have hcover := hfree b hb (max s b.1) (le_max_left _ _) (by grind)
  rw [Bool.eq_false_iff] at hcover
  exact hcover (contains_iff.mpr ⟨le_max_right _ _, max_lt (not_le.mp hafter) hne⟩)

/-- **A card that is free during a slot counts as free** once the events up to the start of
the slot are applied, and before those at its end. -/
theorem countsAsFree_of_free (hbusy : Overlapping req) (hpos : 0 < req.duration)
    (hstart : req.windowStart ≤ s) (hg : g ∈ req.gpuIds) (hfree : FreeFrom req s g)
    (hsplit : past ++ rest = req.events) (hrest : ∀ e ∈ rest, s < e.time)
    (hpast : ∀ e ∈ past, e.time < s + req.duration) : req.countsAsFree past g = true := by
  -- the end of an interval that is over by then has been applied
  have hended : ∀ b ∈ req.busyByGpu g, b.2 ≤ s → (⟨b.2, 1, g⟩ : Event) ∈ past := by
    intro b hb hle
    have hmem : (⟨b.2, 1, g⟩ : Event) ∈ past ++ rest := by
      rw [hsplit]
      exact mem_events.mpr ⟨g, hg, b, hb, Or.inr rfl⟩
    exact (List.mem_append.mp hmem).resolve_right fun h => absurd (hrest _ h) (not_lt.mpr hle)
  unfold SweepRequest.countsAsFree
  cases hlast : (past.filter fun e => e.gpuId = g).getLast? with
  | none =>
      rw [List.getLast?_eq_none_iff] at hlast
      dsimp only
      rw [Bool.not_eq_true', List.any_eq_false]
      intro b hb hcover
      obtain ⟨hle, -⟩ := contains_iff.mp hcover
      obtain ⟨hne, -⟩ := hbusy g hg b hb
      have hover := (outside_of_freeFrom hpos hfree hb hne).resolve_right (by grind)
      simpa using List.filter_eq_nil_iff.mp hlast _ (hended b hb hover)
  | some l =>
      dsimp only
      refine decide_eq_true fun hleaves => ?_
      obtain ⟨hl, hlg⟩ := mem_of_last hlast
      obtain ⟨g', hg', b, hb, rfl | rfl⟩ := mem_events.mp (hsplit ▸ List.mem_append_left rest hl)
      · -- an interval that began is over, and its end comes later
        obtain rfl : g' = g := hlg
        obtain ⟨hne, -⟩ := hbusy g' hg b hb
        have hbegan : b.1 < s + req.duration := hpast _ hl
        have hover := (outside_of_freeFrom hpos hfree hb hne).resolve_right (not_le.mpr hbegan)
        rcases before_last hsplit hlast (hended b hb hover) rfl with heq | hbefore
        · exact absurd (congrArg Event.delta heq) (show (1 : Int) ≠ -1 by decide)
        · rcases hbefore with hlt | ⟨heq, -⟩
          · exact absurd hlt (not_lt.mpr hne.le)
          · exact absurd heq hne.ne'
      · cases hleaves

/-- An end that is not before the begin of a separate interval is not before its end. -/
theorem end_le_of_separate (hsep : Separate req) (hg : g ∈ req.gpuIds) {b b' : Busy}
    (hb : b ∈ req.busyByGpu g) (hb' : b' ∈ req.busyByGpu g) (hne : b'.1 < b'.2) (h : b.1 ≤ b'.2) :
    b.2 ≤ b'.2 := by
  by_cases heq : b = b'
  · rw [heq]
  · have : Std.Symm fun b b' : Busy => b.2 < b'.1 ∨ b'.2 < b.1 := ⟨fun _ _ h => h.symm⟩
    rcases (hsep g hg).forall hb hb' heq with hlater | hearlier
    · exact (hlater.trans hne).le
    · exact absurd h (not_le.mpr hearlier)

/-- **A card that counts as free is free**, when its intervals are separate and all that
begin by then have begun. -/
theorem free_of_countsAsFree (hwf : WellFormed req) (hsep : Separate req) (hg : g ∈ req.gpuIds)
    (hsplit : past ++ rest = req.events) (hrest : ∀ e ∈ rest, e.delta = -1 → s < e.time)
    (hpast : ∀ e ∈ past, e.time ≤ s) (hcounts : req.countsAsFree past g = true) {b : Busy}
    (hb : b ∈ req.busyByGpu g) : b.contains s = false := by
  rw [Bool.eq_false_iff]
  intro hcover
  obtain ⟨hbegan, hlasts⟩ := contains_iff.mp hcover
  have hstart : (⟨b.1, -1, g⟩ : Event) ∈ past := by
    have hmem : (⟨b.1, -1, g⟩ : Event) ∈ past ++ rest := by
      rw [hsplit]
      exact mem_events.mpr ⟨g, hg, b, hb, Or.inl rfl⟩
    exact (List.mem_append.mp hmem).resolve_right fun h => absurd (hrest _ h rfl) (not_lt.mpr hbegan)
  unfold SweepRequest.countsAsFree at hcounts
  cases hlast : (past.filter fun e => e.gpuId = g).getLast? with
  | none =>
      rw [List.getLast?_eq_none_iff] at hlast
      simpa using List.filter_eq_nil_iff.mp hlast _ hstart
  | some l =>
      rw [hlast] at hcounts
      obtain ⟨hl, hlg⟩ := mem_of_last hlast
      obtain ⟨g', hg', b', hb', rfl | rfl⟩ := mem_events.mp (hsplit ▸ List.mem_append_left rest hl)
      · exact absurd rfl (of_decide_eq_true hcounts)
      · -- the interval that ended last is another one, and touches it
        obtain rfl : g' = g := hlg
        have hended : b'.2 ≤ s := hpast _ hl
        have horder : b.1 ≤ b'.2 := by
          rcases before_last hsplit hlast hstart rfl with heq | hbefore
          · exact absurd (congrArg Event.delta heq) (show (-1 : Int) ≠ 1 by decide)
          · grind [Event.before]
        obtain ⟨-, hne', -⟩ := hwf g' hg b' hb'
        have hover := end_le_of_separate hsep hg hb hb' hne' horder
        exact absurd (hover.trans hended) (not_le.mpr hlasts)

/-- **A card counts as free** when every interval whose begin was applied is followed by an end
that was. -/
theorem countsAsFree_iff (hsplit : past ++ rest = req.events) (hg : g ∈ req.gpuIds)
    (hinitial : ∀ b ∈ req.busyByGpu g, b.contains req.windowStart = true → ⟨b.1, -1, g⟩ ∈ past) :
    req.countsAsFree past g = true ↔ ∀ b ∈ req.busyByGpu g, (⟨b.1, -1, g⟩ : Event) ∈ past →
      ∃ b' ∈ req.busyByGpu g, b.1 ≤ b'.2 ∧ (⟨b'.2, 1, g⟩ : Event) ∈ past := by
  unfold SweepRequest.countsAsFree
  cases hlast : (past.filter fun e => e.gpuId = g).getLast? with
  | none =>
      rw [List.getLast?_eq_none_iff] at hlast
      have hnone : ∀ e ∈ past, e.gpuId ≠ g := fun e he =>
        by simpa using List.filter_eq_nil_iff.mp hlast e he
      dsimp only
      rw [Bool.not_eq_true', List.any_eq_false]
      refine ⟨fun _ b hb hbegan => absurd rfl (hnone _ hbegan), fun _ b hb hcover => ?_⟩
      exact hnone _ (hinitial b hb hcover) rfl
  | some l =>
      dsimp only
      rw [decide_eq_true_eq]
      obtain ⟨hl, hlg⟩ := mem_of_last hlast
      obtain ⟨g', hg', b, hb, rfl | rfl⟩ := mem_events.mp (hsplit ▸ List.mem_append_left rest hl)
      · -- the last event is a begin, which no end follows
        obtain rfl : g' = g := hlg
        refine ⟨fun h => absurd rfl h, fun h => ?_⟩
        obtain ⟨b', hb', hle, hended⟩ := h b hb hl
        rcases before_last hsplit hlast hended rfl with heq | hbefore
        · exact absurd (congrArg Event.delta heq) (show (1 : Int) ≠ -1 by decide)
        · grind [Event.before]
      · -- the last event is an end, and every begin comes before it
        obtain rfl : g' = g := hlg
        have henters : (1 : Int) ≠ -1 := by decide
        refine ⟨fun _ b' hb' hbegan => ⟨b, hb, ?_, hl⟩, fun _ => henters⟩
        rcases before_last hsplit hlast hbegan rfl with heq | hbefore
        · exact absurd (congrArg Event.delta heq) (show (-1 : Int) ≠ 1 by decide)
        · grind [Event.before]

/-- Counting cards after the events is counting the list. -/
theorem enough_iff (hnd : req.gpuIds.Nodup) {p : Nat → Prop} [DecidablePred p]
    (h : ∀ g ∈ req.gpuIds, req.countsAsFree past g = true ↔ p g) :
    Enough req past ↔ req.gpuCount ≤ (req.gpuIds.filter p).length := by
  have hcards : req.freeAfter past = (req.gpuIds.filter p).toFinset := by
    ext g
    simp only [SweepRequest.freeAfter, Finset.mem_filter, List.mem_toFinset, List.mem_filter,
      decide_eq_true_eq]
    exact and_congr_right (h g)
  rw [Enough, hcards, List.toFinset_card_of_nodup (hnd.filter _)]

/-- An interval around the start of the window has begun by then. -/
theorem began_of_contains {b : Busy} (h : b.contains req.windowStart = true) :
    b.1 ≤ req.windowStart := (contains_iff.mp h).1

/-- After all events up to an instant, enough cards count as free if enough look free. -/
theorem enough_upTo_iff (hnd : req.gpuIds.Nodup) (hstart : req.windowStart ≤ s)
    (hsplit : past ++ rest = req.events) (hpast : ∀ e ∈ past, e.time ≤ s)
    (hrest : ∀ e ∈ rest, s < e.time) :
    Enough req past ↔ req.gpuCount ≤ (req.gpuIds.filter (LooksFree req s)).length := by
  refine enough_iff hnd fun g hg => ?_
  have hmem : ∀ e ∈ req.events, e ∈ past ↔ e.time ≤ s := fun e he =>
    mem_past_iff (p := fun e => e.time ≤ s) hsplit hpast (fun f hf => not_le.mpr (hrest f hf)) he
  have hbegin : ∀ b ∈ req.busyByGpu g, (⟨b.1, -1, g⟩ : Event) ∈ past ↔ b.1 ≤ s := fun b hb =>
    hmem _ (mem_events.mpr ⟨g, hg, b, hb, Or.inl rfl⟩)
  have hend : ∀ b ∈ req.busyByGpu g, (⟨b.2, 1, g⟩ : Event) ∈ past ↔ b.2 ≤ s := fun b hb =>
    hmem _ (mem_events.mpr ⟨g, hg, b, hb, Or.inr rfl⟩)
  rw [countsAsFree_iff hsplit hg fun b hb hcover =>
    (hbegin b hb).mpr ((began_of_contains hcover).trans hstart)]
  refine forall₂_congr fun b hb => ?_
  rw [hbegin b hb]
  refine imp_congr_right fun _ => exists_congr fun b' => and_congr_right fun hb' => ?_
  rw [hend b' hb']

/-- At an instant, after the begins and before the ends. -/
theorem enough_across_iff (hnd : req.gpuIds.Nodup) {t : Time} (hstart : req.windowStart < t)
    (hsplit : past ++ rest = req.events)
    (hpast : ∀ e ∈ past, e.time < t ∨ e.time = t ∧ e.delta ≤ -1)
    (hrest : ∀ e ∈ rest, ¬ (e.time < t ∨ e.time = t ∧ e.delta ≤ -1)) :
    Enough req past ↔ req.gpuCount ≤ (req.gpuIds.filter (LooksFreeAcross req t)).length := by
  refine enough_iff hnd fun g hg => ?_
  have hmem : ∀ e ∈ req.events, e ∈ past ↔ e.time < t ∨ e.time = t ∧ e.delta ≤ -1 := fun e he =>
    mem_past_iff hsplit hpast hrest he
  have hbegin : ∀ b ∈ req.busyByGpu g, (⟨b.1, -1, g⟩ : Event) ∈ past ↔ b.1 ≤ t := fun b hb => by
    rw [hmem _ (mem_events.mpr ⟨g, hg, b, hb, Or.inl rfl⟩)]
    grind
  have hend : ∀ b ∈ req.busyByGpu g, (⟨b.2, 1, g⟩ : Event) ∈ past ↔ b.2 < t := fun b hb => by
    rw [hmem _ (mem_events.mpr ⟨g, hg, b, hb, Or.inr rfl⟩)]
    grind
  rw [countsAsFree_iff hsplit hg fun b hb hcover =>
    (hbegin b hb).mpr ((began_of_contains hcover).trans hstart.le)]
  refine forall₂_congr fun b hb => ?_
  rw [hbegin b hb]
  refine imp_congr_right fun _ => exists_congr fun b' => and_congr_right fun hb' => ?_
  rw [hend b' hb']

end Free

/-! ## the sweep -/

section Sweep

variable {req : SweepRequest} {past es : List Event} {e : Event} {c : Option Time} {s : Time}

/-- The open candidate after an event. -/
def nextStart (enough : Bool) (t : Time) (c : Option Time) : Option Time :=
  if enough then some (c.getD t) else none

/-- The rest of the sweep after an event. -/
def sweepRest (req : SweepRequest) (past : List Event) (e : Event) (es : List Event)
    (c : Option Time) : Option Time :=
  if req.windowEnd ≤ e.time then acceptOpen req c else sweep req es (req.freeAfter (past ++ [e])) c

theorem sweep_cons (he : e.gpuId ∈ req.gpuIds) : sweep req (e :: es) (req.freeAfter past) c =
    match c, decide (Enough req (past ++ [e])) with
    | none, true => sweepRest req past e es (some e.time)
    | none, false => sweepRest req past e es none
    | some a, true => sweepRest req past e es (some a)
    | some a, false => if req.duration ≤ e.time - a then some a else sweepRest req past e es none := by
  unfold sweep
  rw [apply_freeAfter req he]
  rfl

/-- **One event**: it ends a span that was long enough, or the sweep goes on with the next
candidate. -/
theorem sweep_step (he : e.gpuId ∈ req.gpuIds) :
    (∃ a ∈ c, ¬ Enough req (past ++ [e]) ∧ req.duration ≤ e.time - a ∧
        sweep req (e :: es) (req.freeAfter past) c = some a) ∨
      (∀ a ∈ c, Enough req (past ++ [e]) ∨ ¬ req.duration ≤ e.time - a) ∧
        sweep req (e :: es) (req.freeAfter past) c =
          sweepRest req past e es (nextStart (decide (Enough req (past ++ [e]))) e.time c) := by
  rw [sweep_cons he]
  by_cases henough : Enough req (past ++ [e])
  · refine Or.inr ⟨fun a _ => Or.inl henough, ?_⟩
    rw [decide_eq_true henough]
    cases c with
    | none => rfl
    | some a => rfl
  · rw [decide_eq_false henough]
    cases c with
    | none => exact Or.inr ⟨fun a ha => (by cases ha), rfl⟩
    | some a =>
        dsimp only
        split
        · next hlong => exact Or.inl ⟨a, rfl, henough, hlong, rfl⟩
        · next hshort => exact Or.inr ⟨fun b hb => Or.inr (Option.some.inj hb ▸ hshort), rfl⟩

/-- The next candidate starts where the open one does, or at the event. -/
theorem mem_nextStart {enough : Bool} {t a : Time} (ha : a ∈ nextStart enough t c) :
    enough = true ∧ (a ∈ c ∨ c = none ∧ a = t) := by
  unfold nextStart at ha
  split at ha
  · next henough =>
      refine ⟨henough, ?_⟩
      obtain rfl := Option.some.inj ha
      cases c with
      | none => exact Or.inr ⟨rfl, rfl⟩
      | some b => exact Or.inl rfl
  · cases ha

theorem acceptOpen_eq_some_iff : acceptOpen req c = some s ↔
    c = some s ∧ s + req.duration ≤ req.windowEnd := by
  rw [acceptOpen, Option.filter_eq_some_iff, decide_eq_true_eq]
  exact and_congr_right fun _ => by grind

/-- **No earlier slot is missed**: while the events up to the start of a slot are applied the
candidate starts before it, and no later event closes the candidate within the slot. -/
theorem sweep_earlier (hslot : s + req.duration ≤ req.windowEnd) (hpos : 0 < req.duration)
    (henough : ∀ past rest, past ++ rest = req.events → (∀ e ∈ rest, s < e.time) →
      (∀ e ∈ past, e.time < s + req.duration) → Enough req past)
    (hsplit : past ++ es = req.events) (hc : ∀ a ∈ c, a ≤ s)
    (hopen : (∀ e ∈ es, s < e.time) → c ≠ none) :
    ∃ a, sweep req es (req.freeAfter past) c = some a ∧ a ≤ s := by
  have haccept : ∀ a ≤ s, acceptOpen req (some a) = some a := fun a ha =>
    acceptOpen_eq_some_iff.mpr ⟨rfl, by grind⟩
  induction es generalizing past c with
  | nil =>
      obtain ⟨a, rfl⟩ := Option.ne_none_iff_exists'.mp (hopen fun e he => by cases he)
      exact ⟨a, haccept a (hc a rfl), hc a rfl⟩
  | cons e es ih =>
      have he : e.gpuId ∈ req.gpuIds :=
        gpuId_of_mem_events req (hsplit ▸ List.mem_append_right past List.mem_cons_self)
      have hsplit' : (past ++ [e]) ++ es = req.events := by rw [← hsplit, List.append_assoc]; rfl
      have hsorted : ∀ f ∈ es, e.before f := fun f hf =>
        before_of_split hsplit' (List.mem_append_right past List.mem_cons_self) hf
      have hpast : ∀ f ∈ past ++ [e], f.time ≤ e.time := fun f hf => time_le_of_split hsplit hf
      rcases sweep_step he with ⟨a, ha, -, -, hreturn⟩ | ⟨hgoes, hnext⟩
      · exact ⟨a, hreturn, hc a ha⟩
      rw [hnext, sweepRest]
      by_cases hbefore : e.time ≤ s
      · -- the slot has not begun, and the window goes on
        rw [if_neg (by grind)]
        refine ih hsplit' (fun a ha => ?_) fun hrest => ?_
        · rcases (mem_nextStart ha).2 with ha | ⟨-, rfl⟩
          · exact hc a ha
          · exact hbefore
        · rw [decide_eq_true (henough _ _ hsplit' hrest fun f hf => by grind)]
          exact Option.some_ne_none _
      · -- the slot has begun, so that a candidate is open
        have hlater : ∀ f ∈ es, s < f.time := fun f hf => by grind [Event.before]
        obtain ⟨a, rfl⟩ := Option.ne_none_iff_exists'.mp (hopen fun f hf => by
          rcases List.mem_cons.mp hf with rfl | hf
          · exact not_le.mp hbefore
          · exact hlater f hf)
        have hstays : Enough req (past ++ [e]) := by
          by_cases hwithin : e.time < s + req.duration
          · exact henough _ _ hsplit' hlater fun f hf => lt_of_le_of_lt (hpast f hf) hwithin
          · have ha := hc a rfl
            exact (hgoes a rfl).resolve_right (not_not.mpr (by grind))
        rw [decide_eq_true hstays]
        show ∃ a', (if req.windowEnd ≤ e.time then acceptOpen req (some a)
          else sweep req es (req.freeAfter (past ++ [e])) (some a)) = some a' ∧ a' ≤ s
        split
        · exact ⟨a, haccept a (hc a rfl), hc a rfl⟩
        · exact ih hsplit' hc fun _ => Option.some_ne_none a

/-- An event after which enough cards count as free lets a card in. -/
theorem enters_of_opens (he : e.gpuId ∈ req.gpuIds) (hbefore : ¬ Enough req past)
    (hafter : Enough req (past ++ [e])) : e.delta ≠ -1 := by
  intro hleaves
  refine hbefore (le_trans hafter (Finset.card_le_card ?_))
  rw [← apply_freeAfter req he, Event.apply, if_pos hleaves]
  exact Finset.erase_subset _ _

/-- An event after which too few cards count as free takes a card out. -/
theorem leaves_of_closes (he : e.gpuId ∈ req.gpuIds) (hbefore : Enough req past)
    (hafter : ¬ Enough req (past ++ [e])) : e.delta = -1 := by
  by_contra henters
  refine hafter (le_trans hbefore (Finset.card_le_card ?_))
  rw [← apply_freeAfter req he, Event.apply, if_neg henters]
  exact Finset.subset_insert _ _

/-- **What is returned**: a start at which the candidate was opened and from which on it was
kept, up to the last events before its end, which is in the window. -/
theorem sweep_returns {K : List Event → Time → Prop}
    (hopens : ∀ past e rest, past ++ e :: rest = req.events → ¬ Enough req past →
      Enough req (past ++ [e]) → K (past ++ [e]) e.time)
    (hkeeps : ∀ past e a, K past a → Enough req (past ++ [e]) → K (past ++ [e]) a)
    (hcloses : ∀ past e rest, past ++ e :: rest = req.events → Enough req past →
      ¬ Enough req (past ++ [e]) → e.time ≤ req.windowEnd)
    (hsplit : past ++ es = req.events) (hc : ∀ a ∈ c, K past a)
    (hopen : c.isSome = decide (Enough req past))
    (hs : sweep req es (req.freeAfter past) c = some s) :
    s + req.duration ≤ req.windowEnd ∧ ∃ past' rest', past' ++ rest' = req.events ∧ K past' s ∧
      ∀ f ∈ rest', s + req.duration ≤ f.time := by
  induction es generalizing past c with
  | nil =>
      obtain ⟨rfl, hlong⟩ := acceptOpen_eq_some_iff.mp hs
      exact ⟨hlong, past, [], hsplit, hc s rfl, fun f hf => by cases hf⟩
  | cons e es ih =>
      have he := gpuId_of_mem_events req (hsplit ▸ List.mem_append_right past List.mem_cons_self)
      have hsplit' : (past ++ [e]) ++ es = req.events := by rw [← hsplit, List.append_assoc]; rfl
      have hafter : ∀ f ∈ es, e.time ≤ f.time := fun f hf => by
        have hbefore := before_of_split hsplit' (List.mem_append_right past List.mem_cons_self) hf
        grind [Event.before]
      rcases sweep_step he with ⟨a, ha, hcloses', hlong, hreturn⟩ | ⟨-, hnext⟩
      · obtain rfl : a = s := Option.some.inj (hreturn.symm.trans hs)
        have henough : Enough req past := by
          rw [Option.mem_def.mp ha, Option.isSome_some] at hopen
          exact of_decide_eq_true hopen.symm
        have hlast := hcloses past e es hsplit henough hcloses'
        refine ⟨by grind, past, e :: es, hsplit, hc a ha, fun f hf => ?_⟩
        rcases List.mem_cons.mp hf with rfl | hf
        · grind
        · have := hafter f hf
          grind
      · rw [hnext, sweepRest] at hs
        have hc' : ∀ a ∈ nextStart (decide (Enough req (past ++ [e]))) e.time c, K (past ++ [e]) a := by
          intro a ha
          obtain ⟨henough, ha | ⟨rfl, rfl⟩⟩ := mem_nextStart ha
          · exact hkeeps past e a (hc a ha) (of_decide_eq_true henough)
          · refine hopens past e es hsplit (fun hold => ?_) (of_decide_eq_true henough)
            rw [decide_eq_true hold] at hopen
            cases hopen
        split at hs
        · next hbreak =>
            obtain ⟨hnow, hlong⟩ := acceptOpen_eq_some_iff.mp hs
            refine ⟨hlong, past ++ [e], es, hsplit', hc' s hnow, fun f hf => ?_⟩
            exact hlong.trans (hbreak.trans (hafter f hf))
        · refine ih hsplit' hc' ?_ hs
          unfold nextStart
          split
          · next h => rw [h]; rfl
          · next h => rw [Bool.eq_false_of_not_eq_true h]; rfl

end Sweep

/-! ## the candidate -/

section Candidate

variable {req : SweepRequest} {c : CandidateWindow}

/-- The sweep starts with a candidate exactly when enough cards are free. -/
theorem earliestWindowForServer_start (req : SweepRequest) :
    earliestWindowForServer req =
      (sweep req req.events (req.freeAfter [])
        (if Enough req [] then some req.windowStart else none)).map fun s =>
          { gpuIds := pickFirstN req.busyByGpu req.gpuCount s [] req.gpuIds
            startAt := s
            endAt := s + req.duration } := rfl

/-- The sweep starts, and goes on, with a candidate while enough cards count as free. -/
theorem earlier_of_enough (hpos : 0 < req.duration) {s : Time} (hstart : req.windowStart ≤ s)
    (hfinish : s + req.duration ≤ req.windowEnd)
    (henough : ∀ past rest, past ++ rest = req.events → (∀ e ∈ rest, s < e.time) →
      (∀ e ∈ past, e.time < s + req.duration) → Enough req past) :
    ∃ c, earliestWindowForServer req = some c ∧ c.startAt ≤ s := by
  obtain ⟨a, ha, hle⟩ := sweep_earlier hfinish hpos henough (List.nil_append req.events)
    (c := if Enough req [] then some req.windowStart else none)
    (fun a ha => by
      split at ha
      · exact Option.some.inj ha ▸ hstart
      · cases ha)
    fun hlater => by
      rw [if_pos (henough [] req.events rfl hlater fun e he => by cases he)]
      exact Option.some_ne_none _
  rw [earliestWindowForServer_start, ha]
  exact ⟨_, rfl, hle⟩

theorem earlier_of_slot (hbusy : Overlapping req) (hpos : 0 < req.duration) {s : Time}
    (hslot : Slot req s) : ∃ c, earliestWindowForServer req = some c ∧ c.startAt ≤ s := by
  obtain ⟨S, hcards, hcount, hfree⟩ := hslot.cards
  refine earlier_of_enough hpos hslot.start hslot.finish fun past rest hsplit hrest hpast => ?_
  unfold Enough
  rw [← hcount]
  refine Finset.card_le_card fun g hg => Finset.mem_filter.mpr ⟨hcards hg, ?_⟩
  exact countsAsFree_of_free hbusy hpos hslot.start (List.mem_toFinset.mp (hcards hg)) (hfree g hg)
    hsplit hrest hpast

/-- What holds when a candidate is opened, and as long as it is kept, holds of the one that is
returned. -/
theorem exists_start (h : earliestWindowForServer req = some c) {K : List Event → Time → Prop}
    (hbusy : Overlapping req) (hinitial : Enough req [] → K [] req.windowStart)
    (hopens : ∀ past e rest, past ++ e :: rest = req.events → ¬ Enough req past →
      Enough req (past ++ [e]) → K (past ++ [e]) e.time)
    (hkeeps : ∀ past e a, K past a → Enough req (past ++ [e]) → K (past ++ [e]) a) :
    (c.endAt = c.startAt + req.duration ∧ c.endAt ≤ req.windowEnd ∧
      c.gpuIds = pickFirstN req.busyByGpu req.gpuCount c.startAt [] req.gpuIds) ∧
      ∃ past rest, past ++ rest = req.events ∧ K past c.startAt ∧
        ∀ f ∈ rest, c.startAt + req.duration ≤ f.time := by
  rw [earliestWindowForServer_start, Option.map_eq_some_iff] at h
  obtain ⟨s, hs, rfl⟩ := h
  have hcloses : ∀ past e rest, past ++ e :: rest = req.events → Enough req past →
      ¬ Enough req (past ++ [e]) → e.time ≤ req.windowEnd := by
    intro past e rest hsplit hbefore hafter
    have he : e ∈ req.events := hsplit ▸ List.mem_append_right past List.mem_cons_self
    have hleaves := leaves_of_closes (gpuId_of_mem_events req he) hbefore hafter
    obtain ⟨g, hg, b, hb, rfl | rfl⟩ := mem_events.mp he
    · exact (hbusy g hg b hb).2.1.le
    · exact absurd hleaves (show (1 : Int) ≠ -1 by decide)
  obtain ⟨hlong, hkept⟩ := sweep_returns hopens hkeeps hcloses (List.nil_append req.events)
    (fun a ha => by
      split at ha
      · next henough => exact Option.some.inj ha ▸ hinitial henough
      · cases ha)
    (by split <;> simp [*]) hs
  exact ⟨⟨rfl, hlong, rfl⟩, hkept⟩

/-- An event that opens a candidate is the end of an interval, after the window has begun. -/
theorem end_of_opens (hbusy : Overlapping req) {past rest : List Event} {e : Event}
    (hsplit : past ++ e :: rest = req.events) (hbefore : ¬ Enough req past)
    (hafter : Enough req (past ++ [e])) : e.delta = 1 ∧ req.windowStart < e.time := by
  have he : e ∈ req.events := hsplit ▸ List.mem_append_right past List.mem_cons_self
  have henters := enters_of_opens (gpuId_of_mem_events req he) hbefore hafter
  obtain ⟨g, hg, b, hb, rfl | rfl⟩ := mem_events.mp he
  · exact absurd rfl henters
  · exact ⟨rfl, (hbusy g hg b hb).2.2⟩

theorem window_of_candidate (hbusy : Overlapping req) (h : earliestWindowForServer req = some c) :
    req.windowStart ≤ c.startAt ∧ c.endAt = c.startAt + req.duration ∧ c.endAt ≤ req.windowEnd := by
  obtain ⟨⟨hdur, hend, -⟩, -, -, -, hstart, -⟩ :=
    exists_start (K := fun _ a => req.windowStart ≤ a) h hbusy (fun _ => le_refl _)
      (fun _ _ _ hsplit hbefore hafter => (end_of_opens hbusy hsplit hbefore hafter).2.le)
      fun _ _ _ hstart _ => hstart
  exact ⟨hstart, hdur, hend⟩

theorem names_of_candidate (hwf : WellFormed req) (hn : 1 ≤ req.gpuCount) (hnd : req.gpuIds.Nodup)
    (hsep : Separate req) (h : earliestWindowForServer req = some c) : NamesFreeCards req c := by
  have hlength : ∀ {past : List Event} {t : Time}, Enough req past →
      (∀ g ∈ req.gpuIds, req.countsAsFree past g = true → g ∈ req.freeAt t) →
      req.gpuCount ≤ (req.freeAt t).length := by
    intro past t henough hfree
    calc req.gpuCount ≤ (req.freeAfter past).card := henough
      _ ≤ (req.freeAt t).toFinset.card := Finset.card_le_card fun g hg => by
          obtain ⟨hg, hcounts⟩ := Finset.mem_filter.mp hg
          exact List.mem_toFinset.mpr (hfree g (List.mem_toFinset.mp hg) hcounts)
      _ ≤ (req.freeAt t).length := List.toFinset_card_le _
  obtain ⟨⟨-, -, hpicks⟩, -, -, -, hcount, -⟩ := exists_start
    (K := fun _ t => req.gpuCount ≤ (req.freeAt t).length) h hwf.overlapping
    (fun henough => hlength henough fun g hg hcounts => List.mem_filter.mpr ⟨hg, hcounts⟩)
    (fun past e rest hsplit hbefore hafter => by
      have henters := (end_of_opens hwf.overlapping hsplit hbefore hafter).1
      have hsplit' : (past ++ [e]) ++ rest = req.events := by rw [← hsplit, List.append_assoc]; rfl
      refine hlength hafter fun g hg hcounts => List.mem_filter.mpr ⟨hg, ?_⟩
      rw [Bool.not_eq_true', List.any_eq_false]
      intro b hb
      rw [free_of_countsAsFree hwf hsep hg hsplit' (fun f hf hleaves => ?_) (fun f hf => ?_) hcounts hb]
      · exact Bool.false_ne_true
      · -- the event lets a card in, so all that leave at its instant have left
        have hbefore := before_of_split hsplit' (List.mem_append_right past List.mem_cons_self) hf
        rcases hbefore with hlt | ⟨-, hle⟩
        · exact hlt
        · rw [henters, hleaves] at hle
          exact absurd hle (show ¬ (1 : Int) ≤ -1 by decide)
      · exact time_le_of_split hsplit hf)
    fun _ _ _ hcount _ => hcount
  rw [pickFirstN_eq (show ([] : List Nat).length < req.gpuCount from hn), List.nil_append,
    List.length_nil, Nat.sub_zero] at hpicks
  have hsub : c.gpuIds.Sublist (req.freeAt c.startAt) := hpicks ▸ List.take_sublist _ _
  refine ⟨?_, (hnd.filter _).sublist hsub, fun g hg => ?_, fun g hg b hb => ?_⟩
  · rw [hpicks, List.length_take]
    exact Nat.min_eq_left hcount
  · exact List.mem_of_mem_filter (hsub.subset hg)
  · have hfree := (List.mem_filter.mp (hsub.subset hg)).2
    rw [Bool.not_eq_true', List.any_eq_false] at hfree
    exact Bool.eq_false_iff.mpr (hfree b hb)

/-- **The sweep is exact**: for every list of cards with non-empty busy intervals in the
window, it returns a candidate no later than any slot there is; every candidate is in the
window; and where the intervals of a card do not touch, it names as many cards as asked,
all free at its start. -/
theorem earliestWindowForServer_exact (hn : 1 ≤ req.gpuCount) (hpos : 0 < req.duration)
    (hwf : WellFormed req) : Exact req :=
  ⟨fun _ hslot => earlier_of_slot hwf.overlapping hpos hslot,
    fun _ h => window_of_candidate hwf.overlapping h,
    fun hnd hsep _ h => names_of_candidate hwf hn hnd hsep h⟩

/-- Two cards are asked for; the first one is busy first, the second one later. -/
def inTurn : SweepRequest :=
  { gpuIds := [11, 12]
    busyByGpu := fun g => if g = 11 then [(0, hourMicros)] else [(hourMicros, 2 * hourMicros)]
    windowStart := 0, windowEnd := 24 * hourMicros, gpuCount := 2, duration := hourMicros }

theorem earliestWindowForServer_exact_inTurn :
    earliestWindowForServer inTurn = some ⟨[11, 12], 2 * hourMicros, 3 * hourMicros⟩ ∧ Exact inTurn :=
  ⟨by decide +kernel, earliestWindowForServer_exact (by decide) (by decide) (by decide)⟩

end Candidate

/-! ## candidates that stay free -/

/-- A candidate of the sweep keeps its promise, and can be booked for itself in
the database that the request was made from. -/
def CandidateHolds (req : SweepRequest) : Prop :=
  ∀ c, earliestWindowForServer req = some c →
    Sound req c ∧ ∀ db, FromDb db req → Bookable db c

section Sound

variable {req : SweepRequest} {c : CandidateWindow} {s : Time}

/-- **A slot that looks free** keeps enough cards counted as free, whatever events are applied up
to a point in it. -/
theorem enough_of_looksSlot (hnd : req.gpuIds.Nodup) (hlooks : LooksSlot req s)
    {past rest : List Event} (hsplit : past ++ rest = req.events) (hrest : ∀ e ∈ rest, s < e.time)
    (hpast : ∀ e ∈ past, e.time < s + req.duration) : Enough req past := by
  by_cases hupTo : ∀ e ∈ past, e.time ≤ s
  · exact (enough_upTo_iff hnd hlooks.start hsplit hupTo hrest).mpr hlooks.opens
  · -- the last applied event is after the start
    have hne : past ≠ [] := by
      rintro rfl
      exact hupTo fun e he => by cases he
    obtain ⟨init, l, rfl⟩ : ∃ init l, past = init ++ [l] :=
      ⟨past.dropLast, past.getLast hne, (List.dropLast_append_getLast hne).symm⟩
    have hlast : ∀ e ∈ init ++ [l], e.time ≤ l.time := fun e he =>
      time_le_of_split (by rw [← hsplit, List.append_assoc]; rfl) he
    have hl : l ∈ init ++ [l] := List.mem_append_right init List.mem_cons_self
    have hafter : s < l.time := by
      by_contra hle
      exact hupTo fun e he => (hlast e he).trans (not_lt.mp hle)
    refine (hlooks.stays l.time hafter (hpast l hl)).trans ?_
    rw [← List.toFinset_card_of_nodup (hnd.filter _)]
    refine Finset.card_le_card fun g hg => ?_
    obtain ⟨hg, hacross⟩ := List.mem_filter.mp (List.mem_toFinset.mp hg)
    have hacross : LooksFreeAcross req l.time g := of_decide_eq_true hacross
    refine Finset.mem_filter.mpr ⟨List.mem_toFinset.mpr hg, ?_⟩
    have happlied : ∀ e ∈ req.events, e.time < l.time ∨ e.time ≤ s → e ∈ init ++ [l] := by
      intro e he hearly
      rw [← hsplit] at he
      refine (List.mem_append.mp he).resolve_right fun hlate => ?_
      have hbefore := before_of_split hsplit hl hlate
      have hlater := hrest e hlate
      grind [Event.before]
    rw [countsAsFree_iff hsplit hg fun b hb hcover => happlied _
      (mem_events.mpr ⟨g, hg, b, hb, Or.inl rfl⟩)
      (Or.inr ((began_of_contains hcover).trans hlooks.start))]
    intro b hb hbegan
    obtain ⟨b', hb', hle, hended⟩ := hacross b hb (hlast _ hbegan)
    exact ⟨b', hb', hle, happlied _ (mem_events.mpr ⟨g, hg, b', hb', Or.inr rfl⟩) (Or.inl hended)⟩

/-- A candidate was kept since it was opened, after events up to its start. -/
def Held (req : SweepRequest) (past : List Event) (a : Time) : Prop :=
  req.windowStart ≤ a ∧ ∃ opening, opening <+: past ∧ (∀ e ∈ opening, e.time ≤ a) ∧
    ∀ between, opening <+: between → between <+: past → Enough req between

theorem held_of_opens (hbusy : Overlapping req) {past rest : List Event} {e : Event}
    (hsplit : past ++ e :: rest = req.events) (hbefore : ¬ Enough req past)
    (hafter : Enough req (past ++ [e])) : Held req (past ++ [e]) e.time := by
  refine ⟨(end_of_opens hbusy hsplit hbefore hafter).2.le, past ++ [e], List.prefix_refl _,
    fun f hf => time_le_of_split hsplit hf, fun between hlow hhigh => ?_⟩
  rwa [hhigh.eq_of_length (le_antisymm hhigh.length_le hlow.length_le)]

theorem held_of_keeps {past : List Event} {e : Event} {a : Time} (h : Held req past a)
    (hafter : Enough req (past ++ [e])) : Held req (past ++ [e]) a := by
  obtain ⟨hstart, opening, hopening, hearly, hheld⟩ := h
  refine ⟨hstart, opening, hopening.trans (List.prefix_append past [e]), hearly,
    fun between hlow hhigh => ?_⟩
  rcases List.prefix_concat_iff.mp hhigh with rfl | hwithin
  · exact hafter
  · exact hheld between hlow hwithin

/-- **The candidate looks free** for as long as it lasts. -/
theorem looksSlot_of_candidate (hnd : req.gpuIds.Nodup) (hpos : 0 < req.duration)
    (hbusy : Overlapping req) (h : earliestWindowForServer req = some c) :
    LooksSlot req c.startAt := by
  obtain ⟨⟨hdur, hend, -⟩, past, rest, hsplit, ⟨hstart, opening, hopening, hearly, hheld⟩, hlate⟩ :=
    exists_start (K := Held req) h hbusy
      (fun henough => ⟨le_refl _, [], List.nil_prefix, (fun e he => by cases he),
        fun between _ hhigh => List.prefix_nil.mp hhigh ▸ henough⟩)
      (fun _ _ _ hsplit hbefore hafter => held_of_opens hbusy hsplit hbefore hafter)
      fun _ _ _ hheld hafter => held_of_keeps hheld hafter
  have hprefix : opening <+: req.events := hopening.trans (hsplit ▸ List.prefix_append past rest)
  -- up to any point between its opening and its end, enough cards counted as free
  have hkept : ∀ {past' rest' : List Event}, past' ++ rest' = req.events →
      (∀ e ∈ past', e.time < c.startAt + req.duration) → opening <+: past' → Enough req past' := by
    intro past' rest' hsplit' hwithin hafter
    refine hheld past' hafter (prefix_past (p := fun e => e.time < c.startAt + req.duration) hsplit
      (fun e he => not_lt.mpr (hlate e he)) ?_ hwithin)
    exact hsplit' ▸ List.prefix_append past' rest'
  refine ⟨hstart, hdur ▸ hend, ?_, fun t hafter hbefore => ?_⟩
  · obtain ⟨past', rest', hsplit', hpast', hrest'⟩ := exists_split req
      (p := fun e => e.time ≤ c.startAt) fun e f hef hf => by grind [Event.before]
    refine (enough_upTo_iff hnd hstart hsplit' hpast' fun e he => not_le.mp (hrest' e he)).mp ?_
    refine hkept hsplit' (fun e he => ?_) (prefix_past hsplit' hrest' hprefix hearly)
    exact lt_of_le_of_lt (hpast' e he) (lt_add_of_pos_right _ hpos)
  · obtain ⟨past', rest', hsplit', hpast', hrest'⟩ := exists_split req
      (p := fun e => e.time < t ∨ e.time = t ∧ e.delta ≤ -1) fun e f hef hf => by
        grind [Event.before]
    refine (enough_across_iff hnd (lt_of_le_of_lt hstart hafter) hsplit' hpast' hrest').mp ?_
    refine hkept hsplit' (fun e he => ?_) (prefix_past hsplit' hrest' hprefix fun e he =>
      Or.inl (lt_of_le_of_lt (hearly e he) hafter))
    rcases hpast' e he with hlt | ⟨heq, -⟩
    · exact hlt.trans hbefore
    · exact heq ▸ hbefore

/-- A slot whose first free cards stay free is one. -/
theorem FirstFreeStay.slot (hnd : req.gpuIds.Nodup) (h : FirstFreeStay req s) : Slot req s := by
  have hsub : ((req.freeAt s).take req.gpuCount).Sublist (req.freeAt s) := List.take_sublist _ _
  refine ⟨h.start, h.finish, ((req.freeAt s).take req.gpuCount).toFinset, fun g hg => ?_, ?_,
    fun g hg => h.stay g (List.mem_toFinset.mp hg)⟩
  · exact List.mem_toFinset.mpr (List.mem_of_mem_filter (hsub.subset (List.mem_toFinset.mp hg)))
  · rw [List.toFinset_card_of_nodup ((hnd.filter _).sublist hsub), List.length_take]
    exact Nat.min_eq_left h.count

/-- The candidate at `s` promises that the first free cards are enough and stay free. -/
theorem sound_candidateAt_iff (hnd : req.gpuIds.Nodup) (s : Time) :
    Sound req (req.candidateAt s) ↔ req.gpuCount ≤ (req.freeAt s).length ∧
      ∀ g ∈ (req.freeAt s).take req.gpuCount, FreeFrom req s g := by
  have hsub : ((req.freeAt s).take req.gpuCount).Sublist (req.freeAt s) := List.take_sublist _ _
  constructor
  · intro h
    have hcount := h.count
    simp only [SweepRequest.candidateAt, List.length_take] at hcount
    exact ⟨by omega, h.free⟩
  · rintro ⟨hcount, hstay⟩
    refine ⟨?_, (hnd.filter _).sublist hsub, fun g hg => ?_, hstay⟩
    · simpa [SweepRequest.candidateAt] using hcount
    · exact List.mem_of_mem_filter (hsub.subset hg)

/-- The candidate is the one at its start. -/
theorem eq_candidateAt (hn : 1 ≤ req.gpuCount) (h : earliestWindowForServer req = some c) :
    c = req.candidateAt c.startAt := by
  rw [earliestWindowForServer_start, Option.map_eq_some_iff] at h
  obtain ⟨s, -, rfl⟩ := h
  rw [pickFirstN_eq (show ([] : List Nat).length < req.gpuCount from hn)]
  rfl

theorem candidateHolds_of_kept (hnd : req.gpuIds.Nodup) (hn : 1 ≤ req.gpuCount)
    (hpos : 0 < req.duration) (hbusy : Overlapping req) (h : SlotsAreKept req) :
    CandidateHolds req := by
  intro c hc
  obtain ⟨s, hle, hstays⟩ := h c.startAt (looksSlot_of_candidate hnd hpos hbusy hc)
  obtain ⟨c', hc', hearlier⟩ := earlier_of_slot hbusy hpos (hstays.slot hnd)
  obtain rfl : c = c' := Option.some.inj (hc.symm.trans hc')
  obtain rfl : s = c.startAt := le_antisymm hle hearlier
  have hsound := (sound_candidateAt_iff hnd c.startAt).mpr ⟨hstays.count, hstays.stay⟩
  obtain ⟨hstart, hdur, hend⟩ := window_of_candidate hbusy hc
  rw [eq_candidateAt hn hc]
  exact ⟨hsound, fun db hdb => bookable_of_sound hdb hstart (hdur ▸ hend) hsound⟩

/-- **The recommender**: a server's candidate keeps its promise exactly when no slot looks free
before the first one in which the first free cards stay free. -/
theorem earliestWindowForServer_sound_iff (hnd : req.gpuIds.Nodup) (hn : 1 ≤ req.gpuCount)
    (hpos : 0 < req.duration) (hbusy : Overlapping req) :
    CandidateHolds req ↔ SlotsAreKept req := by
  constructor
  · intro h s hlooks
    obtain ⟨c, hc, hle⟩ := earlier_of_enough hpos hlooks.start hlooks.finish
      fun _ _ hsplit hrest hpast => enough_of_looksSlot hnd hlooks hsplit hrest hpast
    obtain ⟨hstart, hdur, hend⟩ := window_of_candidate hbusy hc
    have hsound := (h c hc).1
    rw [eq_candidateAt hn hc] at hsound
    obtain ⟨hcount, hstay⟩ := (sound_candidateAt_iff hnd c.startAt).mp hsound
    exact ⟨c.startAt, hle, hstart, hdur ▸ hend, hcount, hstay⟩
  · exact candidateHolds_of_kept hnd hn hpos hbusy

/-- **Separate intervals**: where no interval of a card touches another one and all cards are asked
for, what looks free is free. -/
theorem slotsAreKept_of_separate (hbusy : Overlapping req) (hsep : Separate req)
    (hall : req.gpuCount = req.gpuIds.length) : SlotsAreKept req := by
  intro s hlooks
  have hcards : ∀ p : Nat → Bool, req.gpuCount ≤ (req.gpuIds.filter p).length →
      ∀ g ∈ req.gpuIds, p g = true := fun p henough =>
    List.length_filter_eq_length_iff.mp (le_antisymm (List.length_filter_le _ _) (hall ▸ henough))
  have hstart : ∀ g ∈ req.gpuIds, ∀ b ∈ req.busyByGpu g, b.contains s = false := by
    intro g hg b hb
    rw [Bool.eq_false_iff]
    intro hcover
    obtain ⟨hbegan, hlasts⟩ := contains_iff.mp hcover
    obtain ⟨b', hb', horder, hended⟩ := of_decide_eq_true (hcards _ hlooks.opens g hg) b hb hbegan
    have hover := end_le_of_separate hsep hg hb hb' (hbusy g hg b' hb').1 horder
    exact absurd (hover.trans hended) (not_le.mpr hlasts)
  have hstay : ∀ g ∈ req.gpuIds, FreeFrom req s g := by
    intro g hg b hb t hlow hhigh
    rcases hlow.eq_or_lt with rfl | hafter
    · exact hstart g hg b hb
    · rw [Bool.eq_false_iff]
      intro hcover
      obtain ⟨hbegan, hlasts⟩ := contains_iff.mp hcover
      obtain ⟨b', hb', horder, hended⟩ :=
        of_decide_eq_true (hcards _ (hlooks.stays t hafter hhigh) g hg) b hb hbegan
      have hover := end_le_of_separate hsep hg hb hb' (hbusy g hg b' hb').1 horder
      exact absurd (hover.trans_lt hended) (not_lt.mpr hlasts.le)
  refine ⟨s, le_refl s, hlooks.start, hlooks.finish, ?_, fun g hg => ?_⟩
  · have hfree : req.freeAt s = req.gpuIds :=
      List.filter_eq_self.mpr fun g hg => by simpa using hstart g hg
    rw [hfree, hall]
  · exact hstay g (List.mem_of_mem_filter (List.mem_of_mem_take hg))

theorem earliestWindowForServer_sound_iff_inTurn : CandidateHolds inTurn :=
  (earliestWindowForServer_sound_iff (by decide) (by decide) (by decide) (by decide)).mpr
    (slotsAreKept_of_separate (by decide) (by decide) rfl)

/-- One card for an hour, in a day that starts after the given bookings began. -/
def oneCard (busy : List Busy) : SweepRequest :=
  { gpuIds := [11], busyByGpu := fun _ => busy, windowStart := 0, windowEnd := 24 * hourMicros
    gpuCount := 1, duration := hourMicros }

/-- Two bookings back to back: at the instant between them the sweep takes the
card out of the free set and puts it back, and the picks of its candidate are
none. -/
theorem earliestWindowForServer_not_sound :
    ¬ ∀ req : SweepRequest, req.gpuIds.Nodup → 1 ≤ req.gpuCount → 0 < req.duration →
      WellFormed req → CandidateHolds req := by
  intro h
  have hsound := (h (oneCard [(0, hourMicros), (hourMicros, 2 * hourMicros)]) (by decide)
    (by decide) (by decide) (by decide) ⟨[], hourMicros, 2 * hourMicros⟩ (by decide +kernel)).1
  exact absurd hsound.count (by decide)

end Sound

/-! ## all servers -/

/-- The intervals that `recommend` hands to the sweep are well formed. -/
theorem wellFormed_ofDb {db : Db} (hchecks : ∀ r ∈ db.reservations, r.checks = true)
    (gpuIds : List Nat) (gpuCount : Nat) (duration : Int) (searchStart : Time) :
    WellFormed (.ofDb db gpuIds gpuCount duration searchStart) := by
  intro g hg b hb
  obtain ⟨r, hr, rfl⟩ := List.mem_map.mp hb
  rw [List.mem_insertionSort] at hr
  simp only [windowActiveReservations, List.mem_filter, Bool.and_eq_true, decide_eq_true_eq] at hr
  obtain ⟨hr, ⟨-, hstart⟩, hend⟩ := hr
  have hrow := window_of_checks (hchecks r hr)
  have hweek : searchStart < searchStart + (horizonDays : Int) * (24 * hourMicros) :=
    lt_add_of_pos_right _ (by decide)
  exact ⟨le_max_right _ _, max_lt (lt_min hrow hstart) (lt_min hend hweek), min_le_right _ _⟩

/-- The first of the candidates, sorted by start, is no later than any of them. -/
theorem first_of_sorted {topK : Nat} (htop : 1 ≤ topK) {candidates : List (Nat × CandidateWindow)}
    {x : Nat × CandidateWindow} (hx : x ∈ candidates) :
    ∃ first, ((candidates.insertionSort fun a b => a.2.startAt ≤ b.2.startAt).take topK).head? =
      some first ∧ first.2.startAt ≤ x.2.startAt := by
  have : Std.Total fun a b : Nat × CandidateWindow => a.2.startAt ≤ b.2.startAt :=
    ⟨fun a b => le_total _ _⟩
  have : IsTrans (Nat × CandidateWindow) fun a b => a.2.startAt ≤ b.2.startAt :=
    ⟨fun _ _ _ => le_trans⟩
  have hsorted := List.pairwise_insertionSort
    (fun a b : Nat × CandidateWindow => a.2.startAt ≤ b.2.startAt) candidates
  have hmem := (List.mem_insertionSort fun a b : Nat × CandidateWindow =>
    a.2.startAt ≤ b.2.startAt).mpr hx
  revert hsorted hmem
  cases candidates.insertionSort fun a b => a.2.startAt ≤ b.2.startAt with
  | nil =>
      intro _ hmem
      cases hmem
  | cons first rest =>
      intro hsorted hmem
      obtain ⟨k, rfl⟩ : ∃ k, topK = k + 1 := ⟨topK - 1, by omega⟩
      refine ⟨first, by rw [List.take_succ_cons, List.head?_cons], ?_⟩
      rcases List.mem_cons.mp hmem with rfl | hmem
      · exact le_refl _
      · exact (List.pairwise_cons.mp hsorted).1 x hmem

/-- The candidates of the servers with enough cards. -/
def candidates (db : Db) (selected : Gpu → Bool) (gpuCount timeLimitSeconds : Nat)
    (searchStart : Time) : List (Nat × CandidateWindow) :=
  ((gpusByServer (selectedGpus db selected)).entries.filter
    fun e => decide (gpuCount ≤ e.2.length)).filterMap fun e =>
      (earliestWindowForServer (.ofDb db e.2 gpuCount (timeLimitSeconds * secondMicros)
        searchStart)).map fun c => (e.1, c)

theorem recommend_eq (db : Db) (selected : Gpu → Bool) (gpuCount timeLimitSeconds : Nat)
    (searchStart : Time) (topK : Nat) :
    recommend db selected gpuCount timeLimitSeconds searchStart topK =
      if gpuCount < 1 ∨ timeLimitSeconds < 60 then none
      else some (((candidates db selected gpuCount timeLimitSeconds searchStart).insertionSort
        fun a b => a.2.startAt ≤ b.2.startAt).take topK) := rfl

/-- **`recommend` misses no earlier slot**: if any server with enough cards has a slot, the
list it returns starts with a candidate that is no later. -/
theorem recommend_earliest {db : Db} {selected : Gpu → Bool} {gpuCount timeLimitSeconds : Nat}
    {searchStart : Time} {topK : Nat} {found : List (Nat × CandidateWindow)}
    (hchecks : ∀ r ∈ db.reservations, r.checks = true) (htop : 1 ≤ topK)
    (h : recommend db selected gpuCount timeLimitSeconds searchStart topK = some found)
    {serverId : Nat} {gids : List Nat} (hserver : (gpusByServer (selectedGpus db selected)).get?
      serverId = some gids) (henough : gpuCount ≤ gids.length) {s : Time}
    (hslot : Slot (.ofDb db gids gpuCount (timeLimitSeconds * secondMicros) searchStart) s) :
    ∃ first, found.head? = some first ∧ first.2.startAt ≤ s := by
  rw [recommend_eq] at h
  split at h
  · cases h
  next hargs =>
  obtain rfl := Option.some.inj h
  have hpos : (0 : Int) < (timeLimitSeconds : Int) * secondMicros :=
    mul_pos (by omega) (by decide)
  obtain ⟨c, hc, hle⟩ := earlier_of_slot
    (wellFormed_ofDb hchecks gids gpuCount _ searchStart).overlapping hpos hslot
  have hmem : (serverId, c) ∈ candidates db selected gpuCount timeLimitSeconds searchStart := by
    refine List.mem_filterMap.mpr ⟨(serverId, gids), List.mem_filter.mpr ⟨?_, ?_⟩, by rw [hc]; rfl⟩
    · exact Dict.get?_eq_some_iff.mp hserver
    · exact decide_eq_true henough
  obtain ⟨first, hfirst, hbefore⟩ := first_of_sorted htop hmem
  exact ⟨first, hfirst, hbefore.trans hle⟩

/-- Where the slots of every server are kept, each candidate can be booked. -/
theorem bookable_of_mem_recommend {db : Db} {selected : Gpu → Bool}
    {gpuCount timeLimitSeconds : Nat} {searchStart : Time} {topK : Nat}
    {found : List (Nat × CandidateWindow)} (hchecks : ∀ r ∈ db.reservations, r.checks = true)
    (h : recommend db selected gpuCount timeLimitSeconds searchStart topK = some found)
    (hkept : ∀ gids, SlotsAreKept
      (.ofDb db gids gpuCount (timeLimitSeconds * secondMicros) searchStart))
    {serverId : Nat} {c : CandidateWindow} (hc : (serverId, c) ∈ found) : Bookable db c := by
  obtain ⟨hn, hlimit, gids, hnd, hgids, hcand⟩ := mem_recommend h hc
  have hpos : (0 : Int) < (timeLimitSeconds : Int) * secondMicros :=
    mul_pos (by omega) (by decide)
  have hgpus : ∀ g ∈ gids, ∃ gpu ∈ db.gpus, gpu.id = g := by
    intro g hg
    obtain ⟨gpu, hgpu, hid, -⟩ := hgids g hg
    exact ⟨gpu, hgpu, hid⟩
  have hbusy := (wellFormed_ofDb hchecks gids gpuCount
    ((timeLimitSeconds : Int) * secondMicros) searchStart).overlapping
  have hholds := candidateHolds_of_kept hnd hn hpos hbusy (hkept gids)
  exact (hholds c hcand).2 db (fromDb_ofDb hchecks hgpus hpos searchStart)

end EarliestSlot

end CoreLab
