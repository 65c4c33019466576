import Mathlib.Order.Defs.Unbundled
import Mathlib.Tactic.Common

/-!
# SimFerret.Lib.Hierarchy — views of a hierarchy and their layered overlay

A *view* is a partial map from paths to entries.  `below a p` says that `a` is a proper ancestor of `p`; it is any
strict order.  An entry is a directory or not (`dir`).

* `Closed`: every entry's proper ancestors are present and are directories; preserved by `dropSubtree`,
  `dropChildren` and by an accepted `add`.
* `add`: one addition of a layer, with its implicit directories and the removal of what a change of kind leaves
  behind.
* `overlay`: what a layer means, path by path; `Added.eq_overlay` proves that the fold of `add` computes it when no
  non-directory addition is a proper ancestor of another addition.
* `Added.fate`: an addition that a non-directory addition shadows is gone, and any other is kept.
* `surviving`: the additions that no non-directory addition shadows; in a forest the fold of `add` always
  computes their overlay (`Added.eq_surviving`), in whatever order the additions came (`Added.perm`).
-/

namespace Hierarchy

variable {P E : Type}

/-- A partial map from paths to entries. -/
abbrev View (P E : Type) := P → Option E

section Ops

variable (below : P → P → Prop) (dir : E → Prop)

/-- Every entry's proper ancestors are present and are directories. -/
def Closed (m : View P E) : Prop :=
  ∀ p e, m p = some e → ∀ a, below a p → ∃ d, m a = some d ∧ dir d

open Classical in
/-- Remove `t` and everything below it. -/
noncomputable def dropSubtree (t : P) (m : View P E) : View P E :=
  fun p => if p = t ∨ below t p then none else m p

open Classical in
/-- Remove everything strictly below `t`. -/
noncomputable def dropChildren (t : P) (m : View P E) : View P E :=
  fun p => if below t p then none else m p

open Classical in
/-- Give every absent proper ancestor of `n` the entry `dflt`. -/
noncomputable def fillAncestors (dflt : E) (n : P) (m : View P E) : View P E :=
  fun p => if below p n ∧ m p = none then some dflt else m p

/-- The entry at `n` and the addition `e` differ in being a directory. -/
def Clash (n : P) (e : E) (m : View P E) : Prop :=
  ∃ x, m n = some x ∧ ¬ (dir x ↔ dir e)

open Classical in
/-- Drop what an entry of the other kind leaves at and below `n`. -/
noncomputable def evict (n : P) (e : E) (m : View P E) : View P E :=
  if Clash dir n e m then dropSubtree below n m else m

open Classical in
/-- One addition of a layer. -/
noncomputable def add (dflt : E) (n : P) (e : E) (m : View P E) : View P E :=
  fun p => if p = n then some e else evict below dir n e (fillAncestors below dflt n m) p

/-- No proper ancestor of `n` is present as a non-directory. -/
def Accepts (n : P) (m : View P E) : Prop :=
  ∀ a, below a n → ∀ x, m a = some x → dir x

end Ops

section Basic

variable {below : P → P → Prop} {dir : E → Prop}

theorem fillAncestors_of_some {m : View P E} {dflt x : E} {n p : P} (h : m p = some x) :
    fillAncestors below dflt n m p = some x := by
  simp [fillAncestors, h]

theorem fillAncestors_of_not_below {m : View P E} {dflt : E} {n p : P} (h : ¬ below p n) :
    fillAncestors below dflt n m p = m p := by
  simp [fillAncestors, h]

/-- An accepted path has directories above it once its ancestors are filled. -/
theorem fillAncestors_dir {m : View P E} {dflt : E} (hdflt : dir dflt) {n a : P}
    (hacc : Accepts below dir n m) (ha : below a n) :
    ∃ d, fillAncestors below dflt n m a = some d ∧ dir d := by
  cases hm : m a with
  | none => exact ⟨dflt, by simp [fillAncestors, ha, hm], hdflt⟩
  | some x => exact ⟨x, fillAncestors_of_some hm, hacc a ha x hm⟩

/-- Eviction at `n` only touches `n` and what is below it. -/
theorem evict_of_not_below {m : View P E} {n p : P} {e : E} (hp : p ≠ n) (hb : ¬ below n p) :
    evict below dir n e m p = m p := by
  unfold evict
  split_ifs
  · simp [dropSubtree, hp, hb]
  · rfl

theorem evict_of_clash {m : View P E} {n p : P} {e : E} (hc : Clash dir n e m) (hb : below n p) :
    evict below dir n e m p = none := by
  simp [evict, hc, dropSubtree, hb]

theorem evict_of_not_clash {m : View P E} {n : P} {e : E} (hc : ¬ Clash dir n e m) :
    evict below dir n e m = m := by
  simp [evict, hc]

theorem add_self {m : View P E} {dflt e : E} {n : P} : add below dir dflt n e m n = some e := by
  simp [add]

theorem add_of_ne {m : View P E} {dflt e : E} {n p : P} (h : p ≠ n) :
    add below dir dflt n e m p = evict below dir n e (fillAncestors below dflt n m) p := by
  simp [add, h]

end Basic

section Laws

variable {below : P → P → Prop} {dir : E → Prop} [IsStrictOrder P below]

theorem below_trans {a b c : P} (h1 : below a b) (h2 : below b c) : below a c :=
  IsTrans.trans a b c h1 h2

theorem not_below_self (a : P) : ¬ below a a := Std.Irrefl.irrefl a

theorem closed_dropSubtree {m : View P E} (h : Closed below dir m) (t : P) :
    Closed below dir (dropSubtree below t m) := by
  intro p e hp a ha
  unfold dropSubtree at hp
  split_ifs at hp with hc
  rw [not_or] at hc
  obtain ⟨d, hd, hdir⟩ := h p e hp a ha
  refine ⟨d, ?_, hdir⟩
  have hat : ¬ (a = t ∨ below t a) := by
    rintro (rfl | hta)
    · exact hc.2 ha
    · exact hc.2 (below_trans hta ha)
  unfold dropSubtree
  rw [if_neg hat, hd]

theorem closed_dropChildren {m : View P E} (h : Closed below dir m) (t : P) :
    Closed below dir (dropChildren below t m) := by
  intro p e hp a ha
  unfold dropChildren at hp
  split_ifs at hp with hc
  obtain ⟨d, hd, hdir⟩ := h p e hp a ha
  refine ⟨d, ?_, hdir⟩
  have hat : ¬ below t a := fun hta => hc (below_trans hta ha)
  unfold dropChildren
  rw [if_neg hat, hd]

theorem closed_fillAncestors {m : View P E} {dflt : E} (hdflt : dir dflt)
    (h : Closed below dir m) {n : P} (hacc : Accepts below dir n m) :
    Closed below dir (fillAncestors below dflt n m) := by
  intro p e hp a ha
  by_cases hpn : below p n
  · exact fillAncestors_dir hdflt hacc (below_trans ha hpn)
  · rw [fillAncestors_of_not_below hpn] at hp
    obtain ⟨d, hd, hdir⟩ := h p e hp a ha
    exact ⟨d, fillAncestors_of_some hd, hdir⟩

theorem not_below_of_below {a b : P} (h : below a b) : ¬ below b a :=
  fun h' => not_below_self _ (below_trans h h')

/-- Above its own path an addition leaves directories. -/
theorem add_above {m : View P E} {dflt e : E} (hdflt : dir dflt) {n a : P}
    (hacc : Accepts below dir n m) (ha : below a n) :
    ∃ d, add below dir dflt n e m a = some d ∧ dir d := by
  have hne : a ≠ n := by rintro rfl; exact not_below_self _ ha
  rw [add_of_ne hne, evict_of_not_below hne (not_below_of_below ha)]
  exact fillAncestors_dir hdflt hacc ha

/-- An accepted addition keeps the view closed. -/
theorem closed_add {m : View P E} {dflt : E} (hdflt : dir dflt) (h : Closed below dir m)
    {n : P} {e : E} (hacc : Accepts below dir n m) : Closed below dir (add below dir dflt n e m) := by
  have h1 := closed_fillAncestors hdflt h hacc
  intro p x hp a ha
  by_cases hpn : p = n
  · subst hpn
    exact add_above hdflt hacc ha
  · rw [add_of_ne hpn] at hp
    have hclosed : Closed below dir (evict below dir n e (fillAncestors below dflt n m)) := by
      unfold evict
      split_ifs
      · exact closed_dropSubtree h1 n
      · exact h1
    obtain ⟨d, hd, hdir⟩ := hclosed p x hp a ha
    by_cases han : a = n
    · -- `p` survived below `n`, so the old entry of `n` was a directory and did not clash
      subst han
      refine ⟨e, add_self, ?_⟩
      by_cases hclash : Clash dir a e (fillAncestors below dflt a m)
      · rw [evict_of_clash hclash ha] at hp
        exact absurd hp (by simp)
      · rw [evict_of_not_clash hclash] at hd
        by_contra hne
        exact hclash ⟨d, hd, fun hiff => hne (hiff.mp hdir)⟩
    · exact ⟨d, by rw [add_of_ne han]; exact hd, hdir⟩

/-! ## The overlay of a list of additions -/

variable (below dir) in
/-- `Added dflt m as m'`: the additions `as`, each accepted in its turn, take the view `m` to `m'`. -/
inductive Added (dflt : E) (m : View P E) : List (P × E) → View P E → Prop
  | nil : Added dflt m [] m
  | snoc {as : List (P × E)} {m' : View P E} {n : P} {e : E} (h : Added dflt m as m')
      (hacc : Accepts below dir n m') : Added dflt m (as ++ [(n, e)]) (add below dir dflt n e m')

theorem Added.closed {dflt : E} (hdflt : dir dflt) {m m' : View P E} {as : List (P × E)}
    (h : Added below dir dflt m as m') (hm : Closed below dir m) : Closed below dir m' := by
  induction h with
  | nil => exact hm
  | snoc _ hacc ih => exact closed_add hdflt ih hacc

omit [IsStrictOrder P below] in
/-- A property of entries at paths that holds of the view, of the additions and of the implicit directories
above them holds of the result. -/
theorem Added.entries {dflt : E} {m m' : View P E} {as : List (P × E)} {good : P → E → Prop}
    (h : Added below dir dflt m as m') (hm : ∀ p e, m p = some e → good p e)
    (has : ∀ a ∈ as, good a.1 a.2 ∧ ∀ q, below q a.1 → good q dflt) :
    ∀ p e, m' p = some e → good p e := by
  induction h with
  | nil => exact hm
  | snoc h hacc ih =>
    rename_i as m' n x
    have hold := ih (fun a ha => has a (List.mem_append_left _ ha))
    obtain ⟨hn, habove⟩ := has (n, x) (by simp)
    intro p e hp
    by_cases hpn : p = n
    · subst hpn
      rw [add_self] at hp
      cases hp
      exact hn
    · have hfill : fillAncestors below dflt n m' p = some e := by
        rw [add_of_ne hpn] at hp
        unfold evict at hp
        split_ifs at hp
        · unfold dropSubtree at hp
          split_ifs at hp
          exact hp
        · exact hp
      unfold fillAncestors at hfill
      split_ifs at hfill with hc
      · cases hfill
        exact habove p hc.1
      · exact hold p e hfill

variable (below dir) in
/-- No non-directory addition is a proper ancestor of another addition. -/
def Separated (as : List (P × E)) : Prop :=
  ∀ a ∈ as, ∀ b ∈ as, below a.1 b.1 → dir a.2

omit [IsStrictOrder P below] in
theorem Separated.init {as : List (P × E)} {a : P × E} (h : Separated below dir (as ++ [a])) :
    Separated below dir as :=
  fun x hx y hy => h x (List.mem_append_left _ hx) y (List.mem_append_left _ hy)

variable (below dir) in
/-- `p` is not strictly below a non-directory addition. -/
def Clear (as : List (P × E)) (p : P) : Prop := ∀ a ∈ as, ¬ dir a.2 → ¬ below a.1 p

open Classical in
variable (below dir) in
/-- What the additions `as` mean over the view `m`: the addition at a path, else the entry of `m` that is clear
of the non-directory additions, else an implicit directory above an addition. -/
noncomputable def overlay [DecidableEq P] (dflt : E) (as : List (P × E)) (m : View P E) : View P E := fun p =>
  match as.lookup p with
  | some e => some e
  | none =>
    if (m p).isSome ∧ Clear below dir as p then m p
    else if ∃ a ∈ as, below p a.1 then some dflt
    else none

/-- Above every addition the view has directories. -/
theorem Added.above {dflt : E} (hdflt : dir dflt) {m m' : View P E} {as : List (P × E)}
    (h : Added below dir dflt m as m') (hs : Separated below dir as) :
    ∀ b ∈ as, ∀ a, below a b.1 → ∃ d, m' a = some d ∧ dir d := by
  induction h with
  | nil => simp
  | snoc h hacc ih =>
    rename_i as m' n e
    intro b hb a ha
    rcases List.mem_append.mp hb with hb' | hb'
    · obtain ⟨d, hd, hdir⟩ := ih hs.init b hb' a ha
      by_cases han : a = n
      · subst han
        exact ⟨e, add_self, hs (a, e) (by simp) b hb ha⟩
      · rw [add_of_ne han]
        by_cases hna : below n a
        · -- `n` is an ancestor of `b` too: it held a directory and gets one, so nothing is evicted
          have hnb := below_trans hna ha
          obtain ⟨x, hx, hxdir⟩ := ih hs.init b hb' n hnb
          have hedir : dir e := hs (n, e) (by simp) b hb hnb
          have hclash : ¬ Clash dir n e (fillAncestors below dflt n m') := by
            rintro ⟨y, hy, hne⟩
            rw [fillAncestors_of_some hx] at hy
            cases hy
            exact hne ⟨fun _ => hedir, fun _ => hxdir⟩
          rw [evict_of_not_clash hclash]
          exact ⟨d, fillAncestors_of_some hd, hdir⟩
        · rw [evict_of_not_below han hna]
          exact ⟨d, fillAncestors_of_some hd, hdir⟩
    · simp only [List.mem_singleton] at hb'
      subst hb'
      exact add_above hdflt hacc ha

section Overlay

variable [DecidableEq P] {dflt e : E} {m m' : View P E} {as : List (P × E)} {n p : P}

omit [IsStrictOrder P below] in
theorem overlay_of_mem (hnd : (as.map Prod.fst).Nodup) (h : (p, e) ∈ as) :
    overlay below dir dflt as m p = some e := by
  have hl : as.lookup p = some e := by
    induction as with
    | nil => simp at h
    | cons a as ih =>
      obtain ⟨q, x⟩ := a
      rw [List.map_cons, List.nodup_cons] at hnd
      rcases List.mem_cons.mp h with h' | h'
      · cases h'; simp
      · have hqp : ¬ p = q := by
          intro hpq
          exact hnd.1 (List.mem_map.mpr ⟨(p, e), h', hpq⟩)
        rw [List.lookup_cons, beq_false_of_ne hqp]
        exact ih hnd.2 h'
  simp [overlay, hl]

omit [IsStrictOrder P below] in
theorem overlay_of_not_mem (hp : p ∉ as.map Prod.fst) :
    overlay below dir dflt as m p =
      open Classical in if (m p).isSome ∧ Clear below dir as p then m p
      else if ∃ a ∈ as, below p a.1 then some dflt else none := by
  have hl : as.lookup p = none := by
    rw [List.lookup_eq_none_iff]
    intro a ha
    exact bne_iff_ne.mpr (fun h => hp (List.mem_map.mpr ⟨a, ha, h.symm⟩))
  simp only [overlay, hl]

/-- Where the overlay keeps an entry of the closed view `m`, it keeps the directories above it, unless an addition
took their place. -/
theorem overlay_keeps_above (dflt : E) (hm : Closed below dir m) {x : E} (hx : m p = some x)
    (hc : Clear below dir as p) (hnp : below n p) (hn : n ∉ as.map Prod.fst) :
    ∃ d, overlay below dir dflt as m n = some d ∧ dir d := by
  obtain ⟨d, hd, hdir⟩ := hm p x hx n hnp
  refine ⟨d, ?_, hdir⟩
  have hcn : Clear below dir as n := fun a ha hnd hb => hc a ha hnd (below_trans hb hnp)
  rw [overlay_of_not_mem hn, if_pos ⟨by simp [hd], hcn⟩, hd]

/-- One more addition moves the overlay as `add` does. -/
theorem add_overlay (hm : Closed below dir m) (hs : Separated below dir (as ++ [(n, e)]))
    (hn : n ∉ as.map Prod.fst)
    (hnd : (as.map Prod.fst).Nodup)
    (habove : ∀ b ∈ as, ∀ a, below a b.1 →
      ∃ d, overlay below dir dflt as m a = some d ∧ dir d) :
    add below dir dflt n e (overlay below dir dflt as m) =
      overlay below dir dflt (as ++ [(n, e)]) m := by
  have hnd' : ((as ++ [(n, e)]).map Prod.fst).Nodup := by
    rw [List.map_append, List.nodup_append]
    refine ⟨hnd, by simp, ?_⟩
    intro a ha b hb
    simp only [List.map_cons, List.map_nil, List.mem_singleton] at hb
    subst hb
    rintro rfl
    exact hn ha
  set o := overlay below dir dflt as m with ho
  have hmemn : (n, e) ∈ as ++ [(n, e)] := by simp
  -- below an ancestor of an earlier addition nothing is evicted
  have hkeep : ∀ b ∈ as, below n b.1 → ¬ Clash dir n e (fillAncestors below dflt n o) := by
    rintro b hb hnb ⟨y, hy, hne⟩
    obtain ⟨d, hd, hdir⟩ := habove b hb n hnb
    rw [fillAncestors_of_some hd] at hy
    cases hy
    exact hne ⟨fun _ => hs (n, e) hmemn b (List.mem_append_left _ hb) hnb, fun _ => hdir⟩
  funext p
  by_cases hpn : p = n
  · subst hpn
    rw [add_self, overlay_of_mem hnd' hmemn]
  rw [add_of_ne hpn]
  by_cases hpa : p ∈ as.map Prod.fst
  · -- an earlier addition stays
    obtain ⟨⟨q, x⟩, hx, rfl⟩ := List.mem_map.mp hpa
    dsimp only at hpn ⊢
    have hox : o q = some x := overlay_of_mem hnd hx
    rw [overlay_of_mem hnd' (List.mem_append_left _ hx)]
    by_cases hnp : below n q
    · rw [evict_of_not_clash (hkeep _ hx hnp)]
      exact fillAncestors_of_some hox
    · rw [evict_of_not_below hpn hnp]
      exact fillAncestors_of_some hox
  have hpa' : p ∉ (as ++ [(n, e)]).map Prod.fst := by simpa [hpn] using hpa
  have hop := @overlay_of_not_mem P E below dir _ dflt m as p hpa
  rw [← ho] at hop
  rw [overlay_of_not_mem hpa']
  by_cases hlow : (m p).isSome ∧ Clear below dir as p
  · -- a lower entry that the earlier additions kept
    rw [if_pos hlow] at hop
    obtain ⟨⟨x, hx⟩, hc⟩ := And.intro (Option.isSome_iff_exists.mp hlow.1) hlow.2
    rw [hx] at hop ⊢
    by_cases hnp : below n p
    · obtain ⟨d, hd, hdir⟩ := overlay_keeps_above dflt hm hx hc hnp hn
      by_cases hedir : dir e
      · have hclash : ¬ Clash dir n e (fillAncestors below dflt n o) := by
          rintro ⟨y, hy, hne⟩
          rw [fillAncestors_of_some hd] at hy
          cases hy
          exact hne ⟨fun _ => hedir, fun _ => hdir⟩
        have hc' : Clear below dir (as ++ [(n, e)]) p := by
          intro a ha hna
          rcases List.mem_append.mp ha with ha | ha
          · exact hc a ha hna
          · simp only [List.mem_singleton] at ha
            subst ha
            exact absurd hedir hna
        rw [evict_of_not_clash hclash, fillAncestors_of_some hop, if_pos ⟨by simp, hc'⟩]
      · have hclash : Clash dir n e (fillAncestors below dflt n o) :=
          ⟨d, fillAncestors_of_some hd, fun hiff => hedir (hiff.mp hdir)⟩
        have hc' : ¬ Clear below dir (as ++ [(n, e)]) p := fun h => h (n, e) hmemn hedir hnp
        have himp : ¬ ∃ a ∈ as ++ [(n, e)], below p a.1 := by
          rintro ⟨a, ha, hpa⟩
          rcases List.mem_append.mp ha with ha' | ha'
          · exact hedir (hs (n, e) hmemn a ha (below_trans hnp hpa))
          · simp only [List.mem_singleton] at ha'
            subst ha'
            exact not_below_of_below hnp hpa
        rw [evict_of_clash hclash hnp, if_neg (fun h => hc' h.2), if_neg himp]
    · have hc' : Clear below dir (as ++ [(n, e)]) p := by
        intro a ha hna
        rcases List.mem_append.mp ha with ha | ha
        · exact hc a ha hna
        · simp only [List.mem_singleton] at ha
          subst ha
          exact hnp
      rw [evict_of_not_below hpn hnp, fillAncestors_of_some hop, if_pos ⟨by simp, hc'⟩]
  · -- nothing of the lower view is left at `p`
    rw [if_neg hlow] at hop
    have hlow' : ¬ ((m p).isSome ∧ Clear below dir (as ++ [(n, e)]) p) :=
      fun h => hlow ⟨h.1, fun a ha => h.2 a (List.mem_append_left _ ha)⟩
    rw [if_neg hlow']
    by_cases himp : ∃ a ∈ as, below p a.1
    · obtain ⟨a, ha, hpa⟩ := himp
      rw [if_pos ⟨a, ha, hpa⟩] at hop
      rw [if_pos ⟨a, List.mem_append_left _ ha, hpa⟩]
      by_cases hnp : below n p
      · rw [evict_of_not_clash (hkeep a ha (below_trans hnp hpa))]
        exact fillAncestors_of_some hop
      · rw [evict_of_not_below hpn hnp]
        exact fillAncestors_of_some hop
    · rw [if_neg himp] at hop
      by_cases hpn' : below p n
      · rw [evict_of_not_below hpn (not_below_of_below hpn'), if_pos ⟨(n, e), hmemn, hpn'⟩]
        simp [fillAncestors, hpn', hop]
      · have himp' : ¬ ∃ a ∈ as ++ [(n, e)], below p a.1 := by
          rintro ⟨a, ha, hpa⟩
          rcases List.mem_append.mp ha with ha' | ha'
          · exact himp ⟨a, ha', hpa⟩
          · simp only [List.mem_singleton] at ha'
            subst ha'
            exact hpn' hpa
        rw [if_neg himp']
        by_cases hnp : below n p
        · by_cases hclash : Clash dir n e (fillAncestors below dflt n o)
          · exact evict_of_clash hclash hnp
          · rw [evict_of_not_clash hclash, fillAncestors_of_not_below hpn', hop]
        · rw [evict_of_not_below hpn hnp, fillAncestors_of_not_below hpn', hop]

/-- **Additions compute the overlay**: over a closed view, accepted additions with distinct paths, none of them a
non-directory above another, give exactly `overlay`. -/
theorem Added.eq_overlay (hdflt : dir dflt) (h : Added below dir dflt m as m')
    (hm : Closed below dir m) (hs : Separated below dir as) (hnd : (as.map Prod.fst).Nodup) :
    m' = overlay below dir dflt as m := by
  induction h with
  | nil =>
    funext p
    rw [overlay_of_not_mem (by simp)]
    cases hp : m p <;> simp [Clear]
  | snoc h hacc ih =>
    rename_i as m' n e
    rw [List.map_append, List.nodup_append] at hnd
    obtain ⟨hnd, -, hdisj⟩ := hnd
    have hn : n ∉ as.map Prod.fst := fun hn => hdisj n hn n (by simp) rfl
    have hm' := ih hs.init hnd
    have habove := h.above hdflt hs.init
    rw [hm'] at habove ⊢
    exact add_overlay hm hs hn hnd habove

end Overlay

/-! ## Additions in any order -/

open Classical in
variable (below dir) in
/-- The additions that are not strictly below a non-directory addition. -/
noncomputable def surviving (as : List (P × E)) : List (P × E) := as.filter fun a => Clear below dir as a.1

section Order

variable [DecidableEq P] {dflt e : E} {m m' : View P E} {as : List (P × E)} {n p : P}

omit [IsStrictOrder P below] [DecidableEq P] in
theorem mem_surviving {a : P × E} : a ∈ surviving below dir as ↔ a ∈ as ∧ Clear below dir as a.1 := by
  simp [surviving]

omit [IsStrictOrder P below] [DecidableEq P] in
theorem nodup_surviving (h : (as.map Prod.fst).Nodup) : ((surviving below dir as).map Prod.fst).Nodup :=
  h.sublist (List.Sublist.map _ List.filter_sublist)

omit [DecidableEq P] in
/-- What a non-directory addition shadows, a surviving one shadows. -/
theorem exists_surviving (h : ¬ Clear below dir as p) :
    ∃ a ∈ surviving below dir as, ¬ dir a.2 ∧ below a.1 p := by
  -- the topmost of the non-directory additions above `p`
  have hwf : ∀ l : List (P × E), (∃ a ∈ l, ¬ dir a.2 ∧ below a.1 p) →
      ∃ a ∈ l, (¬ dir a.2 ∧ below a.1 p) ∧ ∀ b ∈ l, ¬ dir b.2 → ¬ below b.1 a.1 := by
    intro l
    induction l with
    | nil => rintro ⟨a, ha, -⟩; simp at ha
    | cons b l ih =>
      rintro ⟨a, ha, hna, hap⟩
      by_cases hl : ∃ a ∈ l, ¬ dir a.2 ∧ below a.1 p
      · obtain ⟨c, hc, ⟨hnc, hcp⟩, hmin⟩ := ih hl
        by_cases hb : ¬ dir b.2 ∧ below b.1 c.1
        · refine ⟨b, List.mem_cons_self, ⟨hb.1, below_trans hb.2 hcp⟩, fun d hd hnd hdb => ?_⟩
          rcases List.mem_cons.mp hd with rfl | hd
          · exact not_below_self _ hdb
          · exact hmin d hd hnd (below_trans hdb hb.2)
        · refine ⟨c, List.mem_cons_of_mem _ hc, ⟨hnc, hcp⟩, fun d hd hnd hdc => ?_⟩
          rcases List.mem_cons.mp hd with rfl | hd
          · exact hb ⟨hnd, hdc⟩
          · exact hmin d hd hnd hdc
      · rcases List.mem_cons.mp ha with rfl | ha
        · refine ⟨a, List.mem_cons_self, ⟨hna, hap⟩, fun d hd hnd hda => ?_⟩
          rcases List.mem_cons.mp hd with rfl | hd
          · exact not_below_self _ hda
          · exact hl ⟨d, hd, hnd, below_trans hda hap⟩
        · exact absurd ⟨a, ha, hna, hap⟩ hl
  simp only [Clear, not_forall, not_not] at h
  obtain ⟨a, ha, hna, hap⟩ := h
  obtain ⟨c, hc, hcp, hmin⟩ := hwf as ⟨a, ha, hna, hap⟩
  exact ⟨c, mem_surviving.mpr ⟨hc, fun b hb hnb => hmin b hb hnb⟩, hcp⟩

omit [DecidableEq P] in
/-- An addition that is clear of the others keeps its entry and directories above it; one that is not is gone. -/
theorem Added.fate (hdflt : dir dflt) (h : Added below dir dflt m as m') (hnd : (as.map Prod.fst).Nodup) :
    ∀ b ∈ as, (Clear below dir as b.1 → m' b.1 = some b.2 ∧ ∀ a, below a b.1 → ∃ d, m' a = some d ∧ dir d) ∧
      (¬ Clear below dir as b.1 → m' b.1 = none) := by
  induction h with
  | nil => simp
  | snoc h hacc ih =>
    rename_i as m' n e
    rw [List.map_append, List.nodup_append] at hnd
    have hold := ih hnd.1
    have hnew : ∀ b ∈ as, b.1 ≠ n := fun b hb => hnd.2.2 b.1 (List.mem_map_of_mem hb) n (by simp)
    -- a shadow of `n` would be a non-directory that `n` is refused below
    have hshadow : ∀ p, ¬ Clear below dir as p → p = n ∨ below p n → False := by
      intro p hp hpn
      obtain ⟨c, hc, hnc, hcp⟩ := exists_surviving hp
      obtain ⟨hmem, hclear⟩ := mem_surviving.mp hc
      have hcn : below c.1 n := by
        rcases hpn with rfl | hpn
        · exact hcp
        · exact below_trans hcp hpn
      exact hnc (hacc c.1 hcn c.2 ((hold c hmem).1 hclear).1)
    have hclear : ∀ p, Clear below dir (as ++ [(n, e)]) p ↔ Clear below dir as p ∧ (¬ dir e → ¬ below n p) := by
      intro p
      simp only [Clear, List.mem_append, List.mem_singleton, or_imp, forall_and, forall_eq]
    intro b hb
    rcases List.mem_append.mp hb with hb | hb
    · obtain ⟨hkept, hlost⟩ := hold b hb
      rw [hclear, add_of_ne (hnew b hb)]
      refine ⟨?_, fun hgone => ?_⟩
      · rintro ⟨hcb, hne⟩
        obtain ⟨hentry, habove⟩ := hkept hcb
        -- above `b` there is a directory at `n`, and `e` is one
        have hclash : below n b.1 → ¬ Clash dir n e (fillAncestors below dflt n m') := by
          rintro hnb ⟨y, hy, hdiffers⟩
          obtain ⟨x, hx, hxdir⟩ := habove n hnb
          have hedir : dir e := by
            by_contra hnd
            exact hne hnd hnb
          rw [fillAncestors_of_some hx] at hy
          cases hy
          exact hdiffers (iff_of_true hxdir hedir)
        have hkeep : ∀ q x, m' q = some x → q ≠ n → (below n q → below n b.1) →
            evict below dir n e (fillAncestors below dflt n m') q = some x := by
          intro q x hq hqn hbelow
          by_cases hnq : below n q
          · rw [evict_of_not_clash (hclash (hbelow hnq))]
            exact fillAncestors_of_some hq
          · rw [evict_of_not_below hqn hnq]
            exact fillAncestors_of_some hq
        refine ⟨hkeep b.1 b.2 hentry (hnew b hb) id, fun a ha => ?_⟩
        obtain ⟨d, hd, hdir⟩ := habove a ha
        by_cases han : a = n
        · subst han
          refine ⟨e, add_self, ?_⟩
          by_contra hnd
          exact hne hnd ha
        · exact ⟨d, by rw [add_of_ne han]; exact hkeep a d hd han fun hna => below_trans hna ha, hdir⟩
      · by_cases hcb : Clear below dir as b.1
        · -- the new addition is the shadow: it replaces the directory above `b`
          obtain ⟨hne, hnb⟩ : ¬ dir e ∧ below n b.1 := by
            rw [not_and, Classical.not_imp, not_not] at hgone
            exact hgone hcb
          obtain ⟨x, hx, hxdir⟩ := (hkept hcb).2 n hnb
          exact evict_of_clash ⟨x, fillAncestors_of_some hx, fun hiff => hne (hiff.mp hxdir)⟩ hnb
        · have hbn : ¬ below b.1 n := fun hbn => hshadow b.1 hcb (.inr hbn)
          have hfill : fillAncestors below dflt n m' b.1 = none := by
            rw [fillAncestors_of_not_below hbn, hlost hcb]
          unfold evict
          split_ifs
          · unfold dropSubtree
            rw [hfill, ite_self]
          · exact hfill
    · obtain rfl := List.mem_singleton.mp hb
      refine ⟨fun _ => ⟨add_self, fun a ha => add_above hdflt hacc ha⟩, fun hgone => ?_⟩
      refine absurd ((hclear n).mpr ⟨?_, fun _ => not_below_self n⟩) hgone
      by_contra hn
      exact hshadow n hn (.inl rfl)

omit [DecidableEq P] in
/-- **No addition is lost** if and only if the additions are separated. -/
theorem Added.keeps_iff (hdflt : dir dflt) (h : Added below dir dflt m as m') (hnd : (as.map Prod.fst).Nodup) :
    (∀ b ∈ as, m' b.1 = some b.2) ↔ Separated below dir as := by
  constructor
  · intro hkept a ha b hb hab
    by_contra hna
    have hgone := (h.fate hdflt hnd b hb).2 fun hclear => hclear a ha hna hab
    rw [hkept b hb] at hgone
    cases hgone
  · intro hs b hb
    exact ((h.fate hdflt hnd b hb).1 fun a ha hna hab => hna (hs a ha b hb hab)).1

omit [DecidableEq P] in
theorem clear_surviving : Clear below dir (surviving below dir as) p ↔ Clear below dir as p := by
  constructor
  · intro h
    by_contra hc
    obtain ⟨a, ha, hna, hap⟩ := exists_surviving hc
    exact h a ha hna hap
  · exact fun h a ha => h a (mem_surviving.mp ha).1

omit [DecidableEq P] [IsStrictOrder P below] in
theorem separated_surviving : Separated below dir (surviving below dir as) := by
  intro a ha b hb hab
  by_contra hna
  exact (mem_surviving.mp hb).2 a (mem_surviving.mp ha).1 hna hab

/-- An accepted addition is not below a non-directory addition before it. -/
theorem clear_of_accepts (hnd : (as.map Prod.fst).Nodup)
    (hacc : Accepts below dir n (overlay below dir dflt (surviving below dir as) m)) : Clear below dir as n := by
  by_contra hc
  obtain ⟨a, ha, hna, han⟩ := exists_surviving hc
  exact hna (hacc a.1 han a.2 (overlay_of_mem (nodup_surviving hnd) ha))

omit [DecidableEq P] [IsStrictOrder P below] in
/-- A directory shadows nothing. -/
theorem surviving_snoc_dir (hdir : dir e) (hclear : Clear below dir as n) :
    surviving below dir (as ++ [(n, e)]) = surviving below dir as ++ [(n, e)] := by
  have hiff : ∀ p, Clear below dir (as ++ [(n, e)]) p ↔ Clear below dir as p := by
    intro p
    simp [Clear, List.mem_append, or_imp, forall_and, hdir]
  classical
  unfold surviving
  simp only [hiff, List.filter_append]
  congr 1
  simp [hclear]

omit [DecidableEq P] in
/-- A non-directory shadows what is below it. -/
theorem mem_surviving_snoc (hdir : ¬ dir e) (hclear : Clear below dir as n) {a : P × E} :
    a ∈ surviving below dir (as ++ [(n, e)]) ↔
      a ∈ surviving below dir as ∧ ¬ below n a.1 ∨ a = (n, e) := by
  have hiff : ∀ p, Clear below dir (as ++ [(n, e)]) p ↔ Clear below dir as p ∧ ¬ below n p := by
    intro p
    simp [Clear, List.mem_append, or_imp, forall_and, hdir]
  simp only [mem_surviving, hiff, List.mem_append, List.mem_singleton]
  constructor
  · rintro ⟨ha | ha, hc, hb⟩
    · exact .inl ⟨⟨ha, hc⟩, hb⟩
    · exact .inr ha
  · rintro (⟨⟨ha, hc⟩, hb⟩ | rfl)
    · exact ⟨.inl ha, hc, hb⟩
    · exact ⟨.inr rfl, hclear, not_below_self _⟩

/-- A non-directory added over the overlay drops the additions below it. -/
theorem add_overlay_shadow (hforest : ∀ a b p, below a p → below b p → a ≠ b → below a b ∨ below b a)
    (hclosed : Closed below dir (overlay below dir dflt (surviving below dir as) m))
    (hdir : ¬ dir e) (hclear : Clear below dir as n) (hnd : (as.map Prod.fst).Nodup)
    (hnd' : ((as ++ [(n, e)]).map Prod.fst).Nodup) :
    add below dir dflt n e (overlay below dir dflt (surviving below dir as) m) =
      overlay below dir dflt (surviving below dir (as ++ [(n, e)])) m := by
  set o := overlay below dir dflt (surviving below dir as) m with ho
  have hmem : ∀ {a}, _ := fun {a} => @mem_surviving_snoc P E below dir _ e as n hdir hclear a
  have hsnd : ((surviving below dir as).map Prod.fst).Nodup := nodup_surviving hnd
  have hsnd' : ((surviving below dir (as ++ [(n, e)])).map Prod.fst).Nodup := nodup_surviving hnd'
  have hself : (n, e) ∈ surviving below dir (as ++ [(n, e)]) := hmem.mpr (.inr rfl)
  funext p
  by_cases hpn : p = n
  · subst hpn
    rw [add_self, overlay_of_mem hsnd' hself]
  rw [add_of_ne hpn]
  by_cases hnp : below n p
  · -- below `n` nothing is left
    have hleft : evict below dir n e (fillAncestors below dflt n o) p = none := by
      by_cases hclash : Clash dir n e (fillAncestors below dflt n o)
      · exact evict_of_clash hclash hnp
      · rw [evict_of_not_clash hclash, fillAncestors_of_not_below (not_below_of_below hnp)]
        cases hop : o p with
        | none => rfl
        | some x =>
          obtain ⟨d, hd, hdd⟩ := hclosed p x hop n hnp
          exact absurd ⟨d, fillAncestors_of_some hd, fun hiff => hdir (hiff.mp hdd)⟩ hclash
    have hp : p ∉ (surviving below dir (as ++ [(n, e)])).map Prod.fst := by
      intro h
      obtain ⟨a, ha, rfl⟩ := List.mem_map.mp h
      rcases hmem.mp ha with ⟨-, hna⟩ | rfl
      · exact hna hnp
      · exact hpn rfl
    have habove : ¬ ∃ a ∈ surviving below dir (as ++ [(n, e)]), below p a.1 := by
      rintro ⟨a, ha, hpa⟩
      rcases hmem.mp ha with ⟨-, hna⟩ | rfl
      · exact hna (below_trans hnp hpa)
      · exact not_below_of_below hnp hpa
    rw [hleft, overlay_of_not_mem hp, if_neg (fun h => h.2 (n, e) hself hdir hnp), if_neg habove]
  · rw [evict_of_not_below hpn hnp]
    by_cases hp : p ∈ (surviving below dir as).map Prod.fst
    · obtain ⟨a, ha, rfl⟩ := List.mem_map.mp hp
      have hoa : o a.1 = some a.2 := overlay_of_mem hsnd ha
      rw [fillAncestors_of_some hoa, overlay_of_mem hsnd' (hmem.mpr (.inl ⟨ha, hnp⟩))]
    · have hp' : p ∉ (surviving below dir (as ++ [(n, e)])).map Prod.fst := by
        intro h
        obtain ⟨a, ha, rfl⟩ := List.mem_map.mp h
        rcases hmem.mp ha with ⟨ha, -⟩ | rfl
        · exact hp (List.mem_map.mpr ⟨a, ha, rfl⟩)
        · exact hpn rfl
      have hc : Clear below dir (surviving below dir (as ++ [(n, e)])) p ↔
          Clear below dir (surviving below dir as) p := by
        rw [clear_surviving, clear_surviving]
        simp [Clear, List.mem_append, or_imp, forall_and, hnp]
      have habove : (∃ a ∈ surviving below dir (as ++ [(n, e)]), below p a.1) ↔
          (∃ a ∈ surviving below dir as, below p a.1) ∨ below p n := by
        constructor
        · rintro ⟨a, ha, hpa⟩
          rcases hmem.mp ha with ⟨ha, -⟩ | rfl
          · exact .inl ⟨a, ha, hpa⟩
          · exact .inr hpa
        · rintro (⟨a, ha, hpa⟩ | hpn')
          · by_cases hna : below n a.1
            · -- `p` and `n` are both above the dropped addition, and `p` is not below `n`
              rcases hforest p n a.1 hpa hna hpn with h | h
              · exact ⟨(n, e), hself, h⟩
              · exact absurd h hnp
            · exact ⟨a, hmem.mpr (.inl ⟨ha, hna⟩), hpa⟩
          · exact ⟨(n, e), hself, hpn'⟩
      have hop := @overlay_of_not_mem P E below dir _ dflt m (surviving below dir as) p hp
      rw [← ho] at hop
      rw [overlay_of_not_mem hp']
      classical
      simp only [hc, habove]
      by_cases hlow : (m p).isSome ∧ Clear below dir (surviving below dir as) p
      · rw [if_pos hlow] at hop ⊢
        obtain ⟨x, hx⟩ := Option.isSome_iff_exists.mp hlow.1
        rw [hx] at hop ⊢
        exact fillAncestors_of_some hop
      · rw [if_neg hlow] at hop ⊢
        by_cases himp : ∃ a ∈ surviving below dir as, below p a.1
        · rw [if_pos himp] at hop
          rw [if_pos (.inl himp)]
          exact fillAncestors_of_some hop
        · rw [if_neg himp] at hop
          unfold fillAncestors
          by_cases hpn' : below p n <;> simp [hpn', hop, himp]

/-- **Additions compute the overlay of the survivors**, in a forest and over a closed view. -/
theorem Added.eq_surviving (hforest : ∀ a b p, below a p → below b p → a ≠ b → below a b ∨ below b a)
    (hdflt : dir dflt) (h : Added below dir dflt m as m') (hm : Closed below dir m)
    (hnd : (as.map Prod.fst).Nodup) : m' = overlay below dir dflt (surviving below dir as) m := by
  induction h with
  | nil =>
    funext p
    rw [overlay_of_not_mem (by simp [surviving])]
    cases hp : m p <;> simp [Clear, surviving]
  | snoc h hacc ih =>
    rename_i as m' n e
    have hnd' := hnd
    rw [List.map_append, List.nodup_append] at hnd
    obtain ⟨hnd, -, hdisj⟩ := hnd
    have hn : n ∉ as.map Prod.fst := fun hn => hdisj n hn n (by simp) rfl
    have hclosed := h.closed hdflt hm
    rw [ih hnd] at hclosed hacc ⊢
    have hclear := clear_of_accepts hnd hacc
    by_cases hdir : dir e
    · have hsnoc := surviving_snoc_dir hdir hclear
      have hns : n ∉ (surviving below dir as).map Prod.fst := by
        intro h
        obtain ⟨a, ha, rfl⟩ := List.mem_map.mp h
        exact hn (List.mem_map.mpr ⟨a, (mem_surviving.mp ha).1, rfl⟩)
      rw [hsnoc]
      refine add_overlay hm (hsnoc ▸ separated_surviving) hns (nodup_surviving hnd) fun b hb a hab => ?_
      exact hclosed b.1 b.2 (overlay_of_mem (nodup_surviving hnd) hb) a hab
    · exact add_overlay_shadow hforest hclosed hdir hclear hnd hnd'

/-- **The order of the additions is not significant**: two accepted orders of the same additions give one view. -/
theorem Added.perm (hforest : ∀ a b p, below a p → below b p → a ≠ b → below a b ∨ below b a) (hdflt : dir dflt)
    {as' : List (P × E)} {m'' : View P E} (hperm : as.Perm as') (h : Added below dir dflt m as m')
    (h' : Added below dir dflt m as' m'') (hm : Closed below dir m) (hnd : (as.map Prod.fst).Nodup) :
    m' = m'' := by
  have hnd' : (as'.map Prod.fst).Nodup := (hperm.map Prod.fst).nodup_iff.mp hnd
  have hclear : ∀ p, Clear below dir as p ↔ Clear below dir as' p := by
    intro p
    simp only [Clear, hperm.mem_iff]
  have hmem : ∀ a, a ∈ surviving below dir as ↔ a ∈ surviving below dir as' := by
    intro a
    rw [mem_surviving, mem_surviving, hperm.mem_iff, hclear]
  rw [h.eq_surviving hforest hdflt hm hnd, h'.eq_surviving hforest hdflt hm hnd']
  funext p
  by_cases hp : ∃ e, (p, e) ∈ surviving below dir as
  · obtain ⟨e, he⟩ := hp
    rw [overlay_of_mem (nodup_surviving hnd) he, overlay_of_mem (nodup_surviving hnd') ((hmem _).mp he)]
  · have h1 : p ∉ (surviving below dir as).map Prod.fst := by
      intro h
      obtain ⟨a, ha, rfl⟩ := List.mem_map.mp h
      exact hp ⟨a.2, ha⟩
    have h2 : p ∉ (surviving below dir as').map Prod.fst := by
      intro h
      obtain ⟨a, ha, rfl⟩ := List.mem_map.mp h
      exact hp ⟨a.2, (hmem _).mpr ha⟩
    have h3 : Clear below dir (surviving below dir as) p ↔ Clear below dir (surviving below dir as') p := by
      simp only [Clear, hmem]
    rw [overlay_of_not_mem h1, overlay_of_not_mem h2]
    classical
    simp only [h3, hmem]

end Order

end Laws

end Hierarchy
