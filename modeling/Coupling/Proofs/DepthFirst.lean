import Coupling.Proofs.SearchStates

/-!
# What a depth-first search finds

While a search is at some package, everything on the stack leads to it. The lowest number that a search from a package
finds is that of a package on the stack to which there is a way, if it lies below the number of the package itself, and
nothing that the search leaves on the stack is one step away from a lower one. These facts carry over from one dependency
to the next, and from the dependencies of a package to the package. So a search that may go as deep as there are packages
finds all cycles.
-/

namespace Coupling.Search

variable {next : Text → List Text} {s s' s'' : Search} {v w : Text} {low : Nat}

/-! ### Following dependencies -/

/-- A package was met, and has no lower number than `low` if it lay on the stack before. -/
def Within (s : Search) (low : Nat) (s' : Search) (w : Text) : Prop :=
  w ∈ s'.numbers ∧ (w ∈ s.stack → low ≤ s.number w)

theorem Within.mono {low' : Nat} (h : s.Within low s' w) (hlow : low' ≤ low) (hgrows : s'.Grows s'') :
    s.Within low' s'' w :=
  ⟨hgrows.met w h.1, fun hw => Nat.le_trans hlow (h.2 hw)⟩

/-- What a search from a package comes to. -/
structure Visited (next : Text → List Text) (s : Search) (v : Text) (low : Nat) (s' : Search) : Prop where
  sound : Sound next s'
  grows : s.Grows s'
  met : v ∈ s'.numbers
  /-- A lowest number below that of the package is the number of a package on the stack that can be reached. -/
  attained : low < s.count → ∃ u ∈ s.stack, s.number u = low ∧ Leads next v u
  /-- What is left on the stack can be reached, leads to the stack below, and has no step to a lower number. -/
  stack : ∃ above, s'.stack = above ++ s.stack ∧ ∀ u ∈ above, Leads next v u ∧ (∃ y ∈ s.stack, Leads next u y) ∧
    ∀ w ∈ next u, s.Within low s' w

/-- What a search from a package has come to, when it has followed some of its dependencies. -/
structure Follows (next : Text → List Text) (s : Search) (v : Text) (ws : List Text) (low : Nat) (s' : Search) :
    Prop where
  sound : Sound next s'
  grows : (s.meet v).Grows s'
  low_le : low ≤ s.count
  attained : low < s.count → ∃ u ∈ s.stack, s.number u = low ∧ Leads next v u
  within : ∀ w ∈ ws, s.Within low s' w
  stack : ∃ above, s'.stack = above ++ v :: s.stack ∧ ∀ u ∈ above, Leads next v u ∧ Leads next u v ∧
    ∀ w ∈ next u, s.Within low s' w

theorem follows_meet (hs : Sound next s) (hv : v ∉ s.numbers) : Follows next s v [] s.count (s.meet v) where
  sound := hs.meet hv
  grows := ⟨Nat.le_refl _, fun _ hw => hw, fun _ _ => rfl⟩
  low_le := Nat.le_refl _
  attained hlt := absurd hlt (Nat.lt_irrefl _)
  within := by simp
  stack := ⟨[], rfl, by simp⟩

namespace Follows

variable {ws : List Text}

/-- On the way back from a package, everything on the stack leads to it, as it did before. -/
theorem leads (h : Follows next s v ws low s') (hleads : ∀ u ∈ s.stack, Leads next u v) :
    ∀ u ∈ s'.stack, Leads next u v := by
  obtain ⟨above, hstack, habove⟩ := h.stack
  intro u hu
  rw [hstack, List.mem_append, List.mem_cons] at hu
  rcases hu with hu | rfl | hu
  · exact (habove u hu).2.1
  · exact .refl
  · exact hleads u hu

theorem mem_stack (h : Follows next s v ws low s') (hw : w ∈ s.stack) : w ∈ s'.stack := by
  obtain ⟨above, hstack, -⟩ := h.stack
  rw [hstack]
  exact List.mem_append_right _ (List.mem_cons_of_mem v hw)

theorem number_eq (h : Follows next s v ws low s') (hs : Sound next s) (hv : v ∉ s.numbers) :
    s'.number v = s.count ∧ ∀ u ∈ s.stack, u ∈ s'.numbers ∧ s'.number u = s.number u := by
  refine ⟨?_, fun u hu => ?_⟩
  · rw [h.grows.number_eq v (mem_numbers_meet.2 (.inl rfl)), number_meet_self]
  · have hgrows := (grows_meet hv).trans h.grows
    exact ⟨hgrows.met u (hs.met u hu), hgrows.number_eq u (hs.met u hu)⟩

/-- The numbers tell which part of the stack was there before. -/
theorem mem_stack_of_number_lt (h : Follows next s v ws low s') (hs : Sound next s) (hv : v ∉ s.numbers) {u : Text}
    (hu : u ∈ s'.stack) (hlt : s'.number u < s.count) : u ∈ s.stack ∧ s'.number u = s.number u := by
  obtain ⟨above, hstack, -⟩ := h.stack
  obtain ⟨hself, hold⟩ := h.number_eq hs hv
  have hfalling := h.sound.falling
  rw [hstack, List.pairwise_append] at hfalling
  rw [hstack, List.mem_append, List.mem_cons] at hu
  rcases hu with hu | rfl | hu
  · have := hfalling.2.2 u hu v List.mem_cons_self
    omega
  · omega
  · exact ⟨hu, (hold u hu).2⟩

/-- One more dependency is followed, which gives a number and leaves more on the stack. -/
theorem extend (h : Follows next s v ws low s') {lowest : Nat} {more : List Text} (hsound : Sound next s'')
    (hgrows : s'.Grows s'') (hattained : lowest < s.count → ∃ u ∈ s.stack, s.number u = lowest ∧ Leads next v u)
    (hw : s.Within (min low lowest) s'' w) (hstack : s''.stack = more ++ s'.stack)
    (hmore : ∀ u ∈ more, Leads next v u ∧ Leads next u v ∧ ∀ w ∈ next u, s.Within (min low lowest) s'' w) :
    Follows next s v (w :: ws) (min low lowest) s'' where
  sound := hsound
  grows := h.grows.trans hgrows
  low_le := Nat.le_trans (Nat.min_le_left low lowest) h.low_le
  attained hlt := by
    rcases Nat.le_total low lowest with hle | hle
    · rw [Nat.min_eq_left hle] at hlt ⊢
      exact h.attained hlt
    · rw [Nat.min_eq_right hle] at hlt ⊢
      exact hattained hlt
  within := by
    refine List.forall_mem_cons.2 ⟨hw, fun u hu => ?_⟩
    exact (h.within u hu).mono (Nat.min_le_left low lowest) hgrows
  stack := by
    obtain ⟨above, habove, hleads⟩ := h.stack
    refine ⟨more ++ above, by rw [hstack, habove, List.append_assoc], fun u hu => ?_⟩
    rcases List.mem_append.1 hu with hu | hu
    · exact hmore u hu
    · obtain ⟨hvu, huv, hwithin⟩ := hleads u hu
      exact ⟨hvu, huv, fun w hw => (hwithin w hw).mono (Nat.min_le_left low lowest) hgrows⟩

/-- A dependency that was met before, and lies on the stack. -/
theorem known (h : Follows next s v ws low s') (hs : Sound next s) (hv : v ∉ s.numbers) (hstep : w ∈ next v)
    (hw : w ∈ s'.stack) : Follows next s v (w :: ws) (min low (s'.number w)) s' := by
  refine h.extend h.sound (.refl s') (fun hlt => ?_) ⟨h.sound.met w hw, fun hmem => ?_⟩ (List.nil_append _).symm (by simp)
  · obtain ⟨hmem, hnumber⟩ := h.mem_stack_of_number_lt hs hv hw hlt
    exact ⟨w, hmem, hnumber.symm, .single hstep⟩
  · rw [((h.number_eq hs hv).2 w hmem).2]
    exact Nat.min_le_right _ _

/-- A dependency whose class is complete. -/
theorem done (h : Follows next s v ws low s') (hw : s'.Done w) : Follows next s v (w :: ws) low s' := by
  have hwithin : s.Within (min low low) s' w := ⟨hw.1, fun hmem => absurd (h.mem_stack hmem) hw.2⟩
  have hextend := h.extend h.sound (.refl s') h.attained hwithin (List.nil_append _).symm (by simp)
  rwa [Nat.min_self] at hextend

/-- A dependency that was not met before. -/
theorem visited (h : Follows next s v ws low s') (hs : Sound next s) (hv : v ∉ s.numbers)
    (hleads : ∀ u ∈ s.stack, Leads next u v) (hstep : w ∈ next v) (hw : w ∉ s'.numbers) {lowest : Nat}
    (hvisited : Visited next s' w lowest s'') : Follows next s v (w :: ws) (min low lowest) s'' := by
  have hcount : s.count ≤ s'.count := ((grows_meet hv).trans h.grows).count_le
  have hwithin {u : Text} (hu : s'.Within lowest s'' u) : s.Within (min low lowest) s'' u := by
    refine ⟨hu.1, fun hmem => Nat.le_trans (Nat.min_le_right low lowest) ?_⟩
    rw [← ((h.number_eq hs hv).2 u hmem).2]
    exact hu.2 (h.mem_stack hmem)
  obtain ⟨more, hstack, hmore⟩ := hvisited.stack
  refine h.extend hvisited.sound hvisited.grows (fun hlt => ?_) ⟨hvisited.met, fun hmem => ?_⟩ hstack fun u hu => ?_
  · obtain ⟨u, hu, rfl, hway⟩ := hvisited.attained (Nat.lt_of_lt_of_le hlt hcount)
    obtain ⟨hmem, hnumber⟩ := h.mem_stack_of_number_lt hs hv hu hlt
    exact ⟨u, hmem, hnumber.symm, .head hstep hway⟩
  · exact absurd (h.sound.met w (h.mem_stack hmem)) hw
  · obtain ⟨hway, ⟨y, hy, hback⟩, hnext⟩ := hmore u hu
    exact ⟨.head hstep hway, hback.trans (h.leads hleads y hy), fun w hw => hwithin (hnext w hw)⟩

theorem isTop (h : Follows next s v ws s.count s') (hs : Sound next s) (hws : ∀ w ∈ next v, w ∈ ws) :
    ∃ above, IsTop next s' v above s.stack := by
  obtain ⟨above, hstack, habove⟩ := h.stack
  refine ⟨above, by rw [hstack, List.append_cons], fun u hu => ⟨(habove u hu).1, (habove u hu).2.1⟩, fun u hu w hw => ?_⟩
  have hwithin : s.Within s.count s' w := by
    rcases List.mem_append.1 hu with hu | hu
    · exact (habove u hu).2.2 w hw
    · rw [List.mem_singleton.1 hu] at hw
      exact h.within w (hws w hw)
  refine ⟨hwithin.1, fun hmem => ?_⟩
  exact Nat.lt_irrefl _ (Nat.lt_of_le_of_lt (hwithin.2 hmem) (hs.number_lt w (hs.met w hmem)))

/-- When all dependencies are followed, the class of the package is complete, or it stays on the stack. -/
theorem finish (h : Follows next s v ws low s') (hs : Sound next s) (hv : v ∉ s.numbers) (hws : ∀ w ∈ next v, w ∈ ws) :
    Visited next s v low (if low = s.count then s'.complete v else s') := by
  have hgrows : s.Grows s' := (grows_meet hv).trans h.grows
  have hmet : v ∈ s'.numbers := h.grows.met v (mem_numbers_meet.2 (.inl rfl))
  split
  · next heq =>
    subst heq
    obtain ⟨above, htop⟩ := h.isTop hs hws
    refine ⟨htop.sound_complete h.sound, hgrows.trans (htop.grows_complete h.sound), ?_, h.attained, [], ?_, by simp⟩
    · exact (htop.grows_complete h.sound).met v hmet
    · rw [htop.complete_eq h.sound]
      rfl
  · next hne =>
    obtain ⟨y, hy, -, hway⟩ := h.attained (Nat.lt_of_le_of_ne h.low_le hne)
    obtain ⟨above, hstack, habove⟩ := h.stack
    refine ⟨h.sound, hgrows, hmet, h.attained, above ++ [v], by rw [hstack, List.append_cons], fun u hu => ?_⟩
    rcases List.mem_append.1 hu with hu | hu
    · obtain ⟨hvu, huv, hwithin⟩ := habove u hu
      exact ⟨hvu, ⟨y, hy, huv.trans hway⟩, hwithin⟩
    · rw [List.mem_singleton.1 hu]
      exact ⟨.refl, ⟨y, hy, hway⟩, fun w hw => h.within w (hws w hw)⟩

end Follows

/-! ### The search as a whole -/

/-- There are no more than a number of packages that were not met. -/
def Leaves (sources : List Text) (s : Search) (depth : Nat) : Prop :=
  ∃ rest : List Text, rest.length ≤ depth ∧ ∀ v ∈ sources, v ∉ s.numbers → v ∈ rest

variable {sources : List Text} {depth : Nat}

theorem Leaves.grows (h : s.Leaves sources depth) (hgrows : s.Grows s') : s'.Leaves sources depth := by
  obtain ⟨rest, hlength, hrest⟩ := h
  exact ⟨rest, hlength, fun v hv hmet => hrest v hv fun hv => hmet (hgrows.met v hv)⟩

theorem Leaves.meet (h : s.Leaves sources (depth + 1)) (hsource : v ∈ sources) (hv : v ∉ s.numbers) :
    (s.meet v).Leaves sources depth := by
  obtain ⟨rest, hlength, hrest⟩ := h
  refine ⟨rest.erase v, ?_, fun w hw hmet => ?_⟩
  · rw [List.length_erase_of_mem (hrest v hsource hv)]
    omega
  · rw [mem_numbers_meet, not_or] at hmet
    exact (List.mem_erase_of_ne hmet.1).2 (hrest w hw hmet.2)

theorem not_leaves_zero (hsource : v ∈ sources) (hv : v ∉ s.numbers) : ¬ s.Leaves sources 0 := by
  rintro ⟨rest, hlength, hrest⟩
  have hmem := hrest v hsource hv
  rw [List.length_eq_zero_iff.1 (Nat.le_zero.1 hlength)] at hmem
  cases hmem

/-- A search that works from every state that leaves no more than a number of packages. -/
def Visits (next : Text → List Text) (sources : List Text) (depth : Nat) (visit : Text → Search → Nat × Search) : Prop :=
  ∀ (v : Text) (s : Search), Sound next s → v ∈ sources → v ∉ s.numbers → (∀ u ∈ s.stack, Leads next u v) →
    s.Leaves sources depth → Visited next s v (visit v s).1 (visit v s).2

/-- Following more dependencies keeps what a search has come to. -/
theorem Follows.follow {visit : Text → Search → Nat × Search} {before ws : List Text}
    (h : Follows next s v before low s') (hvisit : Visits next sources depth visit) (hs : Sound next s)
    (hv : v ∉ s.numbers) (hleads : ∀ u ∈ s.stack, Leads next u v) (hws : ∀ w ∈ ws, w ∈ next v ∧ w ∈ sources)
    (hleaves : s'.Leaves sources depth) :
    Follows next s v (ws.reverse ++ before) (follow visit ws low s').1 (follow visit ws low s').2 := by
  induction ws generalizing before low s' with
  | nil => exact h
  | cons w ws ih =>
    obtain ⟨⟨hstep, hsource⟩, hws⟩ := List.forall_mem_cons.1 hws
    rw [List.reverse_cons, List.append_assoc, List.singleton_append, Search.follow]
    split
    · next hnone =>
      have hw : w ∉ s'.numbers := by simpa using hnone
      have hvisited : Visited next s' w (visit w s').1 (visit w s').2 :=
        hvisit w s' h.sound hsource hw (fun u hu => (h.leads hleads u hu).tail hstep) hleaves
      exact ih (h.visited hs hv hleads hstep hw hvisited) hws (hleaves.grows hvisited.grows)
    · next number hsome =>
      obtain ⟨hmet, rfl⟩ := number_of_getElem? hsome
      split
      · next hmem => exact ih (h.known hs hv hstep hmem) hws hleaves
      · next hmem => exact ih (h.done ⟨hmet, hmem⟩) hws hleaves

/-- A search that may go as deep as there are packages left works. -/
theorem visits_visit (hsources : ∀ v ∈ sources, ∀ w ∈ next v, w ∈ sources) (depth : Nat) :
    Visits next sources depth (visit next depth) := by
  induction depth with
  | zero => exact fun v s _ hsource hv _ hleaves => absurd hleaves (not_leaves_zero hsource hv)
  | succ depth ih =>
    intro v s hs hsource hv hleads hleaves
    have hfollows := (follows_meet hs hv).follow ih hs hv hleads (fun w hw => ⟨hw, hsources v hsource w hw⟩)
      (hleaves.meet hsource hv)
    exact hfollows.finish hs hv (by simp)

theorem sound_empty (next : Text → List Text) : Sound next {} where
  met := by simp
  number_lt := by simp
  falling := .nil
  closed v w hv := by simp [Done] at hv
  isCycle := by simp
  disjoint := .nil
  covered v w hv := by simp [Done] at hv

/-- Between two searches nothing is left on the stack. -/
structure Idle (next : Text → List Text) (s : Search) : Prop where
  sound : Sound next s
  stack : s.stack = []

theorem Idle.enter (h : Idle next s) (hsources : ∀ v ∈ sources, ∀ w ∈ next v, w ∈ sources) (hv : v ∈ sources) :
    Idle next (enter next sources.length s v) ∧ s.Grows (enter next sources.length s v) ∧
      v ∈ (enter next sources.length s v).numbers := by
  unfold Search.enter
  split
  · next hmet => exact ⟨h, .refl s, hmet⟩
  · next hmet =>
    have hleads : ∀ u ∈ s.stack, Leads next u v := by simp [h.stack]
    have hleaves : s.Leaves sources sources.length := ⟨sources, Nat.le_refl _, fun _ hu _ => hu⟩
    have hvisited := visits_visit hsources sources.length v s h.sound hv hmet hleads hleaves
    refine ⟨⟨hvisited.sound, ?_⟩, hvisited.grows, hvisited.met⟩
    -- Whatever were left on the stack would lead to something below it.
    obtain ⟨above, hstack, habove⟩ := hvisited.stack
    rw [h.stack, List.append_nil] at hstack
    rw [hstack]
    refine List.eq_nil_iff_forall_not_mem.2 fun u hu => ?_
    obtain ⟨-, ⟨y, hy, -⟩, -⟩ := habove u hu
    rw [h.stack] at hy
    cases hy

theorem Idle.foldl_enter (h : Idle next s) (hsources : ∀ v ∈ sources, ∀ w ∈ next v, w ∈ sources) {vs : List Text}
    (hvs : ∀ v ∈ vs, v ∈ sources) : Idle next (vs.foldl (Search.enter next sources.length) s) ∧
      s.Grows (vs.foldl (Search.enter next sources.length) s) ∧
      ∀ v ∈ vs, v ∈ (vs.foldl (Search.enter next sources.length) s).numbers := by
  induction vs generalizing s with
  | nil => exact ⟨h, .refl s, by simp⟩
  | cons v vs ih =>
    obtain ⟨hv, hvs⟩ := List.forall_mem_cons.1 hvs
    obtain ⟨henter, hgrows, hmet⟩ := h.enter hsources hv
    obtain ⟨hrun, hgrows', hmet'⟩ := ih henter hvs
    exact ⟨hrun, hgrows.trans hgrows', List.forall_mem_cons.2 ⟨hgrows'.met v hmet, hmet'⟩⟩

/-- The search from all packages meets them all, and completes their classes. -/
theorem done_run (hsources : ∀ v ∈ sources, ∀ w ∈ next v, w ∈ sources) :
    Sound next (run next sources) ∧ ∀ v ∈ sources, (run next sources).Done v := by
  have hidle : Idle next {} := ⟨sound_empty next, rfl⟩
  obtain ⟨hrun, -, hmet⟩ := hidle.foldl_enter hsources fun _ hv => hv
  refine ⟨hrun.sound, fun v hv => ⟨hmet v hv, ?_⟩⟩
  rw [run, hrun.stack]
  exact List.not_mem_nil

/-! ### The classes that are found -/

theorem isCycle_of_mem_classes_run (hsources : ∀ v ∈ sources, ∀ w ∈ next v, w ∈ sources) {c : List Text}
    (hc : c ∈ (run next sources).classes) : IsCycle (Steps next) c :=
  ((done_run hsources).1.isCycle c hc).1

/-- A package that is not alone in its class is in one of the classes that the search completes. -/
theorem exists_mem_classes_run (hsources : ∀ v ∈ sources, ∀ w ∈ next v, w ∈ sources) (hv : v ∈ sources) (hne : v ≠ w)
    (hway : Leads next v w) (hback : Leads next w v) : ∃ c ∈ (run next sources).classes, v ∈ c := by
  obtain ⟨hsound, hdone⟩ := done_run hsources
  exact hsound.covered v w (hdone v hv) hne hway hback

/-- The classes that a search completes are the cycles. -/
theorem mem_classes_run (hsources : ∀ v w, w ∈ next v → v ∈ sources ∧ w ∈ sources) {c : List Text} :
    c ∈ (run next sources).classes ↔ IsCycle (Steps next) c := by
  have hclosed : ∀ v ∈ sources, ∀ w ∈ next v, w ∈ sources := fun v _ w hw => (hsources v w hw).2
  refine ⟨isCycle_of_mem_classes_run hclosed, fun hc => ?_⟩
  obtain ⟨p, hp, -⟩ := hc.exists_ne []
  obtain ⟨q, hq, hne⟩ := hc.exists_ne p
  obtain ⟨r, hstep⟩ := hc.exists_next hp
  obtain ⟨d, hd, hpd⟩ :=
    exists_mem_classes_run hclosed (hsources p r hstep).1 hne.symm (hc.reaches hp hq) (hc.reaches hq hp)
  rw [hc.eq_of_mem (isCycle_of_mem_classes_run hclosed hd) hp hpd]
  exact hd

theorem disjoint_classes_run (hsources : ∀ v ∈ sources, ∀ w ∈ next v, w ∈ sources) :
    (run next sources).classes.Pairwise List.Disjoint :=
  (done_run hsources).1.disjoint

theorem nodup_classes_run (hsources : ∀ v ∈ sources, ∀ w ∈ next v, w ∈ sources) :
    (run next sources).classes.Nodup := by
  refine (disjoint_classes_run hsources).imp_of_mem fun {c d} hc _ hdisjoint heq => ?_
  obtain ⟨p, hp, -⟩ := (isCycle_of_mem_classes_run hsources hc).exists_ne []
  exact hdisjoint hp (heq ▸ hp)

end Coupling.Search
