import ClusterLink.Proofs.Store.Client
import ClusterLink.Reconcile.Basic
import Mathlib.Data.List.Nodup

/-! The two phases of finalizers, for any list of them. On a live association the missing names are
put (`Registered`); on one that is being deleted the cleanups run whose names are recorded, in order
and until one fails (`Ran`), and if none did all given names are taken off in one write
(`Released`). So no name leaves the store unless its cleanup succeeded. -/

namespace ClusterLink

/-- The association with another list of finalizers. -/
def Association.withFinalizers (a : Association) (names : List String) : Association :=
  { a with metadata := { a.metadata with finalizers := names } }

/-- What is stored after a write of the association with another list of finalizers. -/
def Association.relisted (a : Association) (names : List String) : Association where
  metadata := { a.metadata with finalizers := names, version := a.metadata.version + 1 }
  spec := a.spec
  status := a.status

namespace Finalizer

/-- The names that are not recorded yet, in order and each once. -/
def missing (recorded names : List String) : List String :=
  (names.filter fun name => !recorded.contains name).eraseDups

/-- The finalizers whose names are recorded, in order; of several with one name the first. -/
def due (recorded : List String) (finalizers : List Finalizer) : List Finalizer :=
  (finalizers.filter fun f => recorded.contains f.name).eraseDupsBy fun f g => f.name == g.name

/-- The recorded names that are not given. -/
def left (recorded names : List String) : List String :=
  recorded.filter fun name => !names.contains name

/-- The cleanup leaves the stored association of a key alone. -/
def Spares (key : Key) (f : Finalizer) : Prop :=
  ∀ c : Cluster, (f.cleanup.alone c).2.store.associations.find? key =
    c.store.associations.find? key

/-- The cleanups of finalizers ran one after the other, from one cluster to another. With an error
the last of them failed, and otherwise all succeeded. -/
inductive Ran : List Finalizer → Cluster → Option FinalizerError → Cluster → Prop where
  | nil {c : Cluster} : Ran [] c none c
  | failed {f : Finalizer} {c c' : Cluster} {e : FinalizerError}
    (h : f.cleanup.alone c = (.error e, c')) : Ran [f] c (some e) c'
  | cons {f : Finalizer} {fs : List Finalizer} {c c₁ c' : Cluster} {e? : Option FinalizerError}
    (h : f.cleanup.alone c = (.ok (), c₁)) (hr : Ran fs c₁ e? c') : Ran (f :: fs) c e? c'

/-- What comes of bringing finalizers up to date on a live association. -/
structure Registered (a : Association) (finalizers : List Finalizer) (c : Cluster)
    (r : Report × Cluster) : Prop where
  /-- The cleanups play no part. -/
  program : ∀ gs, gs.map name = finalizers.map name → handle a gs = handle a finalizers
  executed : r.1.executed = []
  /-- If no name is missing nothing is written. -/
  idle : missing a.metadata.finalizers (finalizers.map name) = [] → r = (⟨a, [], none⟩, c)
  /-- The write fails only by a fault. -/
  error : missing a.metadata.finalizers (finalizers.map name) ≠ [] →
    r.1.error = (c.store.fault? .updateAssociation).map .store
  stored : r.1.error = none → r.2.store.associations.find? a.key =
    if missing a.metadata.finalizers (finalizers.map name) = [] then some a
    else some (a.relisted (a.metadata.finalizers ++
      missing a.metadata.finalizers (finalizers.map name)))
  refused : r.1.error ≠ none → r.2.store.associations.find? a.key = some a

/-- What comes of bringing finalizers up to date on an association that is being deleted: which
cleanups ran, which error the last of them met, and what the cluster was then. -/
structure Released (a : Association) (finalizers : List Finalizer) (c : Cluster)
    (r : Report × Cluster) (ran : List Finalizer) (failure : Option FinalizerError)
    (c₁ : Cluster) : Prop where
  course : Ran ran c failure c₁
  executed : r.1.executed = ran.map name
  once : r.1.executed.Nodup
  inOrder : ran <+: due a.metadata.finalizers finalizers
  complete : failure = none → ran = due a.metadata.finalizers finalizers
  /-- If nothing is due nothing is written. -/
  idle : due a.metadata.finalizers finalizers = [] → r = (⟨a, [], none⟩, c)
  /-- It fails with the cleanup that failed, or with a fault that the write meets. -/
  error : due a.metadata.finalizers finalizers ≠ [] →
    r.1.error = failure.or ((c₁.store.fault? .updateAssociation).map .store)
  stored : r.1.error = none → r.2.store.associations.find? a.key =
    if due a.metadata.finalizers finalizers = [] then some a
    else if left a.metadata.finalizers (finalizers.map name) = [] then none
    else some (a.relisted (left a.metadata.finalizers (finalizers.map name)))
  refused : r.1.error ≠ none → r.2.store.associations.find? a.key = some a

/-- When the finalizers that are due ran one after the other, the turn of a name came and its
cleanup succeeded. -/
def CleanedUp (a : Association) (finalizers : List Finalizer) (c : Cluster) (n : String) : Prop :=
  ∃ before f since c₀ c₁, due a.metadata.finalizers finalizers = before ++ f :: since ∧
    f.name = n ∧ Ran before c none c₀ ∧ f.cleanup.alone c₀ = (.ok (), c₁)

variable {a : Association} {f g : Finalizer} {fs ran : List Finalizer} {c c' : Cluster}
  {recorded names : List String} {executed : List String} {key : Key} {e? : Option FinalizerError}

/-! ## Names -/

theorem missing_cons_of_mem {n : String} (h : n ∈ recorded) :
    missing recorded (n :: names) = missing recorded names := by
  simp [missing, h]

theorem missing_cons_of_not_mem {n : String} (h : n ∉ recorded) :
    missing recorded (n :: names) = n :: missing (recorded ++ [n]) names := by
  unfold missing
  rw [List.filter_cons_of_pos (by simp [h]), List.eraseDups_cons, List.filter_filter]
  congr 3
  funext x
  by_cases e : x = n <;> simp [e]

/-- Adding names one by one puts the missing ones behind the others. -/
theorem finalizers_addAll (names : List String) (a : Association) :
    addAll names a = a.withFinalizers (a.metadata.finalizers ++
      missing a.metadata.finalizers names) := by
  induction names generalizing a with
  | nil => simp [addAll, missing, Association.withFinalizers]
  | cons n names ih =>
    have hstep : addAll (n :: names) a =
        addAll names { a with metadata := a.metadata.addFinalizer n } := rfl
    rw [hstep, ih]
    by_cases h : n ∈ a.metadata.finalizers
    · have hsame : a.metadata.addFinalizer n = a.metadata :=
        if_pos (List.contains_iff_mem.2 h)
      rw [hsame, missing_cons_of_mem h]
    · have hadd : a.metadata.addFinalizer n =
          { a.metadata with finalizers := a.metadata.finalizers ++ [n] } :=
        if_neg fun hc => h (List.contains_iff_mem.1 hc)
      rw [hadd, missing_cons_of_not_mem h, ← List.append_cons]
      rfl

theorem due_cons_of_not_mem (h : f.name ∉ recorded) :
    due recorded (f :: fs) = due recorded fs := by
  simp [due, h]

/-- After a finalizer is done with, its name is not recorded any more. -/
theorem due_cons_of_mem (h : f.name ∈ recorded) :
    due recorded (f :: fs) = f :: due (recorded.filter (· != f.name)) fs := by
  unfold due
  rw [List.filter_cons_of_pos (by simp [h]), List.eraseDupsBy_cons, List.filter_filter]
  congr 3
  funext g
  by_cases e : g.name = f.name <;> simp [e]

theorem mem_due_name {n : String} (h : n ∈ (due recorded fs).map name) : n ∈ recorded := by
  induction fs generalizing recorded with
  | nil => cases h
  | cons f fs ih =>
    by_cases hf : f.name ∈ recorded
    · rw [due_cons_of_mem hf] at h
      rcases List.mem_cons.1 h with rfl | h
      · exact hf
      · exact (List.mem_filter.1 (ih h)).1
    · rw [due_cons_of_not_mem hf] at h
      exact ih h

theorem mem_of_mem_due (h : f ∈ due recorded fs) : f ∈ fs := by
  induction fs generalizing recorded with
  | nil => cases h
  | cons g fs ih =>
    by_cases hg : g.name ∈ recorded
    · rw [due_cons_of_mem hg] at h
      rcases List.mem_cons.1 h with rfl | h
      · exact List.mem_cons_self
      · exact List.mem_cons_of_mem _ (ih h)
    · rw [due_cons_of_not_mem hg] at h
      exact List.mem_cons_of_mem _ (ih h)

theorem nodup_due (recorded : List String) (fs : List Finalizer) :
    ((due recorded fs).map name).Nodup := by
  induction fs generalizing recorded with
  | nil => exact .nil
  | cons f fs ih =>
    by_cases hf : f.name ∈ recorded
    · rw [due_cons_of_mem hf]
      refine List.nodup_cons.2 ⟨fun hm => ?_, ih _⟩
      exact bne_iff_ne.1 (List.mem_filter.1 (mem_due_name hm)).2 rfl
    · rw [due_cons_of_not_mem hf]
      exact ih recorded

/-- A given name that is recorded is the name of a finalizer that is due. -/
theorem mem_due_of_given {n : String} (h : n ∈ recorded) (hn : n ∈ fs.map name) :
    n ∈ (due recorded fs).map name := by
  induction fs generalizing recorded with
  | nil => cases hn
  | cons f fs ih =>
    by_cases hf : f.name ∈ recorded
    · rw [due_cons_of_mem hf, List.map_cons]
      by_cases e : n = f.name
      · exact e ▸ List.mem_cons_self
      · refine List.mem_cons_of_mem _ (ih ?_ ((List.mem_cons.1 hn).resolve_left e))
        exact List.mem_filter.2 ⟨h, bne_iff_ne.2 e⟩
    · rw [due_cons_of_not_mem hf]
      refine ih h ((List.mem_cons.1 hn).resolve_left ?_)
      rintro rfl
      exact hf h

theorem left_cons (recorded names : List String) (n : String) :
    left recorded (n :: names) = left (recorded.filter (· != n)) names := by
  unfold left
  rw [List.filter_filter]
  congr 1
  funext x
  by_cases e : x = n <;> simp [e]

theorem left_cons_of_not_mem {n : String} (h : n ∉ recorded) :
    left recorded (n :: names) = left recorded names := by
  rw [left_cons, List.filter_eq_self.2]
  rintro x hx
  exact bne_iff_ne.2 (ne_of_mem_of_not_mem hx h)

/-! ## The write -/

theorem accepts_withFinalizers (hstored : c.store.associations.find? a.key = some a)
    (names : List String) : c.store.associations.Accepts (a.withFinalizers names) a :=
  ⟨hstored, .inr rfl⟩

/-- The write of another list of finalizers of a fresh copy fails only by a fault. -/
theorem alone_write (hstored : c.store.associations.find? a.key = some a) (names executed) :
    let r := (write (a.withFinalizers names) executed).alone c
    r.1.executed = executed ∧ r.1.error = (c.store.fault? .updateAssociation).map .store ∧
      r.2.store.associations.find? a.key =
        if r.1.error = none then
          if a.metadata.isBeingDeleted ∧ names = [] then none else some (a.relisted names)
        else some a := by
  have haccepts := accepts_withFinalizers hstored names
  have halone (answer : Except StoreError Association) (s : Store)
      (h : c.store.updateAssociation (a.withFinalizers names) = (answer, s)) :
      (write (a.withFinalizers names) executed).alone c =
        (match answer with
          | .ok stored => ⟨stored, executed, none⟩
          | .error e => ⟨a.withFinalizers names, executed, some (.store e)⟩, { c with store := s }) := by
    have hc : c.answer (.updateAssociation (a.withFinalizers names)) =
      (answer, { c with store := s }) := congrArg c.withStore h
    cases answer <;> simp [write, Calls.alone, Program.request, Program.run, hc]
  rcases c.store.updateAssociation_cases (a.withFinalizers names) with
    ⟨e, faults, h, hfault | ⟨-, hno⟩⟩ | ⟨stored, writes, hfault, hs, h⟩
  · rw [halone _ _ h, hfault]
    exact ⟨rfl, rfl, hstored⟩
  · exact absurd haccepts (hno a)
  · obtain rfl : a = stored := Option.some.inj (haccepts.1.symm.trans hs.1)
    rw [halone _ _ h, hfault]
    refine ⟨rfl, rfl, ?_⟩
    exact (Table.find?_put ..).trans (if_pos rfl)

/-! ## Cleanups -/

theorem Ran.find? (h : Ran ran c e? c') (hs : ∀ f ∈ ran, f.Spares key) :
    c'.store.associations.find? key = c.store.associations.find? key := by
  induction h with
  | nil => rfl
  | @failed f c c' e h =>
    have hf := hs f List.mem_cons_self c
    rwa [h] at hf
  | @cons f fs c c₁ c' e? h _ ih =>
    have hf := hs f List.mem_cons_self c
    rw [h] at hf
    exact (ih fun g hg => hs g (List.mem_cons_of_mem _ hg)).trans hf

theorem Ran.ne_nil {e : FinalizerError} (h : Ran ran c (some e) c') : ran ≠ [] := by
  rintro rfl
  cases h

/-- Where a cleanup ran before others, and succeeded. -/
theorem Ran.split {before since : List Finalizer} (h : Ran (before ++ f :: since) c e? c')
    (hsince : since ≠ [] ∨ e? = none) :
    ∃ c₀ c₁, Ran before c none c₀ ∧ f.cleanup.alone c₀ = (.ok (), c₁) := by
  induction before generalizing c with
  | nil =>
    cases h with
    | failed h => exact absurd rfl (hsince.resolve_right nofun)
    | cons h _ => exact ⟨_, _, .nil, h⟩
  | cons g before ih =>
    generalize hlist : g :: before ++ f :: since = l at h
    cases h with
    | nil => cases hlist
    | failed h => simp at hlist
    | cons h hr =>
      obtain ⟨rfl, rfl⟩ := List.cons.inj hlist
      obtain ⟨c₀, c₁, hb, hf⟩ := ih hr
      exact ⟨c₀, c₁, .cons h hb, hf⟩

theorem alone_runCleanups_error (hf : a.metadata.hasFinalizer f.name) (executed : List String)
    (fs : List Finalizer) {e : FinalizerError} (h : f.cleanup.alone c = (.error e, c')) :
    (runCleanups a executed (f :: fs)).alone c = (⟨a, executed ++ [f.name], some e⟩, c') := by
  have hrun : f.cleanup.run Cluster.answer c = (.error e, c') := h
  rw [runCleanups, if_pos hf, Calls.alone, Program.run_bind, hrun]
  rfl

theorem alone_runCleanups_ok (hf : a.metadata.hasFinalizer f.name) (executed : List String)
    (fs : List Finalizer) (h : f.cleanup.alone c = (.ok (), c')) :
    (runCleanups a executed (f :: fs)).alone c =
      (runCleanups (a.withFinalizers (a.metadata.finalizers.filter (· != f.name)))
        (executed ++ [f.name]) fs).alone c' := by
  have hrun : f.cleanup.run Cluster.answer c = (.ok (), c') := h
  rw [runCleanups, if_pos hf, Calls.alone, Program.run_bind, hrun]
  rfl

/-- The cleanups that are due run until one fails; if none does, and one ran, the list without the
given names is written. -/
theorem alone_runCleanups (fs : List Finalizer) (a : Association) (executed : List String)
    (c : Cluster) : ∃ ran failure c₁, Ran ran c failure c₁ ∧ ran <+: due a.metadata.finalizers fs ∧
      (failure = none → ran = due a.metadata.finalizers fs) ∧
      match failure with
      | some e => ∃ b, (runCleanups a executed fs).alone c =
          (⟨b, executed ++ ran.map name, some e⟩, c₁)
      | none => (runCleanups a executed fs).alone c =
          if executed ++ ran.map name = [] then (⟨a, [], none⟩, c₁)
          else (write (a.withFinalizers (left a.metadata.finalizers (fs.map name)))
            (executed ++ ran.map name)).alone c₁ := by
  induction fs generalizing a executed c with
  | nil =>
    refine ⟨[], none, c, .nil, List.prefix_rfl, fun _ => rfl, ?_⟩
    have hleft : a.withFinalizers (left a.metadata.finalizers []) = a := by
      simp [Association.withFinalizers, left]
    simp only [runCleanups, List.isEmpty_iff, List.map_nil, List.append_nil, hleft]
    split
    next h => rw [h]; rfl
    next => rfl
  | cons f fs ih =>
    by_cases hf : f.name ∈ a.metadata.finalizers
    · have hhas : a.metadata.hasFinalizer f.name := List.contains_iff_mem.2 hf
      rw [due_cons_of_mem hf]
      rcases hc : f.cleanup.alone c with ⟨e | u, c₁⟩
      · exact ⟨[f], some e, c₁, .failed hc, ⟨_, rfl⟩, nofun, a,
          alone_runCleanups_error hhas executed fs hc⟩
      · obtain ⟨ran, failure, c₂, hran, hpre, hall, h⟩ := ih
          (a.withFinalizers (a.metadata.finalizers.filter (· != f.name))) (executed ++ [f.name]) c₁
        have happ : executed ++ (f :: ran).map name = executed ++ [f.name] ++ ran.map name := by
          simp
        have hne : executed ++ [f.name] ++ ran.map name ≠ [] := by simp
        refine ⟨f :: ran, failure, c₂, .cons hc hran, List.cons_prefix_cons.2 ⟨rfl, hpre⟩,
          fun he => congrArg (f :: ·) (hall he), ?_⟩
        rw [happ, List.map_cons, left_cons, alone_runCleanups_ok hhas executed fs hc]
        cases failure with
        | some e => exact h
        | none =>
          simp only [if_neg hne] at h ⊢
          exact h
    · have hnot : ¬a.metadata.hasFinalizer f.name := fun h => hf (List.contains_iff_mem.1 h)
      have hskip : runCleanups a executed (f :: fs) = runCleanups a executed fs := by
        rw [runCleanups, if_neg hnot]
      rw [due_cons_of_not_mem hf, hskip, List.map_cons, left_cons_of_not_mem hf]
      exact ih a executed c

/-! ## Both phases -/

theorem registered_handle (hstored : c.store.associations.find? a.key = some a)
    (hd : ¬a.metadata.isBeingDeleted) (fs : List Finalizer) :
    Registered a fs c ((handle a fs).alone c) := by
  have hhandle (gs : List Finalizer) : handle a gs = register a gs := if_neg hd
  have hnames (gs : List Finalizer) (h : gs.map name = fs.map name) :
      handle a gs = handle a fs := by
    rw [hhandle, hhandle, register, register, h]
  by_cases hm : missing a.metadata.finalizers (fs.map name) = []
  · have hidle : handle a fs = .done ⟨a, [], none⟩ := by
      rw [hhandle, register, finalizers_addAll, hm]
      exact if_pos (List.append_nil _)
    have halone : (handle a fs).alone c = (⟨a, [], none⟩, c) := by rw [hidle]; rfl
    rw [halone]
    exact {
      program := hnames
      executed := rfl
      idle := fun _ => rfl
      error := fun h => absurd hm h
      stored := fun _ => hstored.trans (if_pos hm).symm
      refused := fun h => absurd rfl h }
  · have hwrite : handle a fs = write (a.withFinalizers (a.metadata.finalizers ++
        missing a.metadata.finalizers (fs.map name))) [] := by
      rw [hhandle, register, finalizers_addAll]
      exact if_neg fun h => hm (List.append_right_eq_self.1 h)
    obtain ⟨hexecuted, herror, hfind⟩ := alone_write hstored (a.metadata.finalizers ++
        missing a.metadata.finalizers (fs.map name)) []
    rw [← hwrite] at hexecuted herror hfind
    exact {
      program := hnames
      executed := hexecuted
      idle := fun h => absurd h hm
      error := fun _ => herror
      stored := fun h => by
        rw [hfind, if_pos h, if_neg hm, if_neg fun hand => hd hand.1]
      refused := fun h => hfind.trans (if_neg h) }

theorem released_handle (hstored : c.store.associations.find? a.key = some a)
    (hd : a.metadata.isBeingDeleted) (hs : ∀ f ∈ fs, f.Spares a.key) :
    ∃ ran failure c₁, Released a fs c ((handle a fs).alone c) ran failure c₁ := by
  have hhandle : handle a fs = runCleanups a [] fs := if_pos hd
  rw [hhandle]
  obtain ⟨ran, failure, c₁, hran, hpre, hall, hend⟩ := alone_runCleanups fs a [] c
  have honce : (ran.map name).Nodup := (nodup_due _ fs).sublist (hpre.map name).sublist
  have hstored₁ : c₁.store.associations.find? a.key = some a :=
    (hran.find? fun f hf => hs f (mem_of_mem_due (hpre.subset hf))).trans hstored
  refine ⟨ran, failure, c₁, ?_⟩
  cases failure with
  | some e =>
    obtain ⟨b, hend⟩ := hend
    have hdue : due a.metadata.finalizers fs ≠ [] := fun h =>
      hran.ne_nil (List.prefix_nil.1 (h ▸ hpre))
    rw [hend]
    exact {
      course := hran
      executed := rfl
      once := honce
      inOrder := hpre
      complete := hall
      idle := fun h => absurd h hdue
      error := fun _ => rfl
      stored := nofun
      refused := fun _ => hstored₁ }
  | none =>
    obtain rfl := hall rfl
    rw [List.nil_append] at hend
    by_cases hdue : due a.metadata.finalizers fs = []
    · obtain rfl : c = c₁ := by
        rw [hdue] at hran
        cases hran
        rfl
      rw [hend, if_pos (List.map_eq_nil_iff.2 hdue)]
      exact {
        course := hran
        executed := (List.map_eq_nil_iff.2 hdue).symm
        once := .nil
        inOrder := hpre
        complete := hall
        idle := fun _ => rfl
        error := fun h => absurd hdue h
        stored := fun _ => hstored.trans (if_pos hdue).symm
        refused := fun h => absurd rfl h }
    · obtain ⟨hexecuted, herror, hfind⟩ := alone_write hstored₁
        (left a.metadata.finalizers (fs.map name)) ((due a.metadata.finalizers fs).map name)
      rw [if_neg fun h => hdue (List.map_eq_nil_iff.1 h)] at hend
      rw [← hend] at hexecuted herror hfind
      exact {
        course := hran
        executed := hexecuted
        once := hexecuted ▸ honce
        inOrder := hpre
        complete := hall
        idle := fun h => absurd h hdue
        error := fun _ => herror
        stored := fun h => by
          rw [hfind, if_pos h, if_neg hdue]
          exact if_congr (and_iff_right hd) rfl rfl
        refused := fun h => hfind.trans (if_neg h) }

/-- No name leaves a live association. -/
theorem Registered.mem_stored {r : Report × Cluster} (h : Registered a fs c r) {n : String}
    (hn : n ∈ a.metadata.finalizers) : ∃ b,
    r.2.store.associations.find? a.key = some b ∧ n ∈ b.metadata.finalizers := by
  by_cases he : r.1.error = none
  · have hstored := h.stored he
    split at hstored
    next => exact ⟨a, hstored, hn⟩
    next => exact ⟨_, hstored, List.mem_append_left _ hn⟩
  · exact ⟨a, h.refused he, hn⟩

/-- A name that was on an association that is being deleted, and is not stored any more, was cleaned
up. -/
theorem Released.cleanedUp {r : Report × Cluster} {failure : Option FinalizerError}
    {c₁ : Cluster} (h : Released a fs c r ran failure c₁) {n : String}
    (hn : n ∈ a.metadata.finalizers)
    (hgone : ∀ b, r.2.store.associations.find? a.key = some b → n ∉ b.metadata.finalizers) :
    n ∈ r.1.executed ∧ CleanedUp a fs c n := by
  have he : r.1.error = none := by_contra fun he => hgone a (h.refused he) hn
  have hstored := h.stored he
  by_cases hdue : due a.metadata.finalizers fs = []
  · rw [if_pos hdue] at hstored
    exact absurd hn (hgone a hstored)
  rw [if_neg hdue] at hstored
  have hleft : n ∉ left a.metadata.finalizers (fs.map name) := by
    split at hstored
    next hnil => exact hnil ▸ List.not_mem_nil
    next => exact hgone _ hstored
  have hgiven : n ∈ fs.map name := by
    by_contra hno
    exact hleft (List.mem_filter.2 ⟨hn, by simpa using hno⟩)
  have hfailure : failure = none := (Option.or_eq_none_iff.1 ((h.error hdue).symm.trans he)).1
  have hmem := mem_due_of_given hn hgiven
  obtain rfl := h.complete hfailure
  refine ⟨h.executed ▸ hmem, ?_⟩
  obtain ⟨f, hf, rfl⟩ := List.mem_map.1 hmem
  obtain ⟨before, since, hsplit⟩ := List.append_of_mem hf
  obtain ⟨c₀, c₂, hbefore, hcleanup⟩ := (hsplit ▸ h.course).split (.inr hfailure)
  exact ⟨before, f, since, c₀, c₂, hsplit, rfl, hbefore, hcleanup⟩

/-- Bringing any finalizers up to date on a fresh copy of a stored association: a live one gets the
missing names, one that is being deleted has its cleanups run and the given names taken off, an
error leaves what is stored, and no name leaves the store unless its cleanup succeeded. -/
theorem handle_in_two_phases (hstored : c.store.associations.find? a.key = some a)
    (hs : ∀ f ∈ fs, f.Spares a.key) :
    let r := (handle a fs).alone c
    (a.metadata.tombstone = none → Registered a fs c r) ∧
    (a.metadata.tombstone ≠ none → ∃ ran failure c₁, Released a fs c r ran failure c₁) ∧
    (r.1.error ≠ none → r.2.store.associations.find? a.key = some a) ∧
    ∀ n ∈ a.metadata.finalizers,
      (∀ b, r.2.store.associations.find? a.key = some b → n ∉ b.metadata.finalizers) →
        a.metadata.tombstone ≠ none ∧ n ∈ r.1.executed ∧ CleanedUp a fs c n := by
  intro r
  by_cases hd : a.metadata.isBeingDeleted
  · have ht : a.metadata.tombstone ≠ none := Option.isSome_iff_ne_none.1 hd
    obtain ⟨ran, failure, c₁, h⟩ := released_handle hstored hd hs
    exact ⟨fun hnone => absurd hnone ht, fun _ => ⟨ran, failure, c₁, h⟩, h.refused,
      fun n hn hgone => ⟨ht, h.cleanedUp hn hgone⟩⟩
  · have ht : a.metadata.tombstone = none := by
      simpa [Metadata.isBeingDeleted] using hd
    have h := registered_handle hstored hd fs
    refine ⟨fun _ => h, fun hsome => absurd ht hsome, h.refused, fun n hn hgone => ?_⟩
    obtain ⟨b, hb, hmem⟩ := h.mem_stored hn
    exact absurd hmem (hgone b hb)

/-- A cleanup that only takes watches away leaves the store alone. -/
theorem spares_watchFinalizer (association key : Key) :
    (Reconcile.watchFinalizer association).Spares key := fun _ => rfl

/-- A cleanup that calls nothing leaves the store alone. -/
theorem spares_done (n : String) (result : Except FinalizerError Unit) (key : Key) :
    Finalizer.Spares key ⟨n, .done result⟩ := fun _ => rfl

/-- The second cleanup of one name does not run, and a name that is not given stays. -/
theorem handle_in_two_phases_of_repeated_name :
    let a : Association := ⟨{ Metadata.new ⟨"ns", "a"⟩ with
      version := 3, finalizers := ["x", "dynamic-watches", "y"], tombstone := some default },
      ⟨⟨"ns", "es1"⟩, ⟨"ns", "kb1"⟩⟩, .established⟩
    let c : Cluster := ⟨{ Store.new 4 with associations := Dict.insert ∅ a.key a }, .empty⟩
    let fs : List Finalizer := [⟨"y", .done (.ok ())⟩, Reconcile.watchFinalizer a.key,
      ⟨"y", .done (.error (.execution "y" "busy"))⟩, ⟨"z", .done (.ok ())⟩]
    let r := (handle a fs).alone c
    r.1.error = none ∧ r.1.executed = ["y", "dynamic-watches"] ∧
      r.2.store.associations.find? a.key = some (a.relisted ["x"]) ∧ CleanedUp a fs c "y" := by
  intro a c fs r
  have hspares : ∀ f ∈ fs, f.Spares a.key := by
    simp only [fs, List.mem_cons, List.not_mem_nil, or_false]
    rintro f (rfl | rfl | rfl | rfl)
    · exact spares_done _ _ _
    · exact spares_watchFinalizer _ _
    · exact spares_done _ _ _
    · exact spares_done _ _ _
  have hfind : r.2.store.associations.find? a.key = some (a.relisted ["x"]) := by decide
  obtain ⟨-, -, -, hgone⟩ := handle_in_two_phases (a := a) (c := c) (by decide) hspares
  have hy : "y" ∈ a.metadata.finalizers := by decide
  refine ⟨by decide, by decide, hfind, (hgone "y" hy fun b hb => ?_).2.2⟩
  obtain rfl := Option.some.inj (hfind.symm.trans hb)
  decide

end Finalizer

end ClusterLink
