import ClusterFtpd.Jail

/-!
# The path that was asked for and the path that is acted on

`BuildVirtualPath` prints the working directory and the argument into `MAX_PATH + 4` characters and
simplifies what has been printed.  The length is checked after that, so a longer text is cut first,
and what is left of it may be short enough again.

Main result: `actsOnAsked_iff`: the path acted on is the one that was asked for unless the text is
cut, its cut form is accepted, and what was cut off does not lead back to where the cut is.
-/

namespace ClusterFtpd

open PathComponents

/-- The whole path that is asked for. -/
def wholeText (szWorkingDir asked : Text) : Text :=
  if asked.head? = some '/' then asked else szWorkingDir ++ '/' :: asked

/-- `BuildVirtualPath` answers `NULL` or the canonical form of the whole path. -/
def ActsOnAsked (szWorkingDir asked : Text) : Prop :=
  ∀ v, buildVirtualPath szWorkingDir (some asked) = some v →
    v = absolute '/' (below '/' '.' (slashes (wholeText szWorkingDir asked)))

/-- What `snprintf` cuts off. -/
def cutOff (szWorkingDir asked : Text) : Text :=
  (szWorkingDir ++ '/' :: asked).drop (MAX_PATH + 3)

/-- The pieces of `rest`, the first of them put behind the last piece `d` of the text, lead from
the names before `d` to where `d` alone leads. -/
def LeadsBack (text rest : Text) : Prop :=
  ∀ x d, text = x ++ '/' :: d → '/' ∉ d →
    resolve '.' (below '/' '.' x) (pieces '/' (d ++ rest)) = resolveStep '.' (below '/' '.' x) d

theorem printPath_append_cutOff (wd arg : Text) :
    printPath wd arg ++ cutOff wd arg = wd ++ '/' :: arg := List.take_append_drop ..

theorem cutOff_eq_nil_iff (wd arg : Text) :
    cutOff wd arg = [] ↔ (wd ++ '/' :: arg).length ≤ MAX_PATH + 3 := List.drop_eq_nil_iff

/-- Text behind the cut leads back exactly when it does not change the names. -/
theorem leadsBack_iff {text w : Text} (h : text = '/' :: w) (rest : Text) :
    LeadsBack text rest ↔ below '/' '.' (text ++ rest) = below '/' '.' text := by
  have hcut : ∀ {x d : Text}, text = x ++ '/' :: d → '/' ∉ d →
      below '/' '.' (text ++ rest) =
          resolve '.' (below '/' '.' x) (pieces '/' (d ++ rest)) ∧
        below '/' '.' text = resolveStep '.' (below '/' '.' x) d := by
    intro x d htext hd
    constructor
    · rw [htext, List.append_assoc, List.cons_append, below_append]
    · rw [htext, below_append, pieces_of_notMem '/' hd, resolve_cons, resolve_nil]
  constructor
  · intro hback
    obtain hno | ⟨x, d, htext, hd⟩ := notMem_or_cut_last '/' text
    · exact absurd (by rw [h]; simp) hno
    · obtain ⟨hall, htake⟩ := hcut htext hd
      rw [hall, htake]
      exact hback x d htext hd
  · intro heq x d htext hd
    obtain ⟨hall, htake⟩ := hcut htext hd
    rw [← hall, ← htake]
    exact heq

/-- The names of a canonical text are read off it. -/
theorem absolute_below_inj {s t : Text}
    (h : absolute '/' (below '/' '.' (slashes s)) = absolute '/' (below '/' '.' (slashes t))) :
    below '/' '.' (slashes s) = below '/' '.' (slashes t) := by
  have hb := congrArg (below '/' '.') h
  rwa [below_absolute (isEntry_of_mem_below s), below_absolute (isEntry_of_mem_below t)] at hb

/-- **`BuildVirtualPath`** acts on the path that was asked for, or on none, exactly when the text
is not cut, or its cut form is too long as well, or what was cut off leads back to the cut. -/
theorem actsOnAsked_iff {wd : Text} (hwd : WorkingDir wd) (arg : Text) :
    ActsOnAsked wd arg ↔
      arg.head? = some '/' ∨ (wd ++ '/' :: arg).length ≤ MAX_PATH + 3 ∨
        MAX_PATH < (absolute '/' (below '/' '.' (slashes (printPath wd arg)))).length ∨
        LeadsBack (slashes (printPath wd arg)) (slashes (cutOff wd arg)) := by
  by_cases hhead : arg.head? = some '/'
  · refine iff_of_true ?_ (.inl hhead)
    intro v hv
    rw [buildVirtualPath_names hwd.canonical hv, askedNames, askedText, wholeText, if_pos hhead,
      if_pos hhead]
  obtain ⟨w, hw⟩ := hwd.canonical.slash_head
  obtain ⟨u, hu⟩ := printPath_of_slash hw arg
  have hslashes : slashes (printPath wd arg) = '/' :: slashes u := by
    rw [hu]
    rfl
  have hback := leadsBack_iff hslashes (slashes (cutOff wd arg))
  rw [← slashes_append, printPath_append_cutOff] at hback
  -- the answer, when the cut text fits
  have hanswer : buildVirtualPath wd (some arg) =
      if (absolute '/' (below '/' '.' (slashes (printPath wd arg)))).length ≤ MAX_PATH then
        some (absolute '/' (below '/' '.' (slashes (printPath wd arg)))) else none := by
    simp only [buildVirtualPath, if_neg hhead, simplifyPath_of_slash hu]
  have hwhole : wholeText wd arg = wd ++ '/' :: arg := if_neg hhead
  unfold ActsOnAsked
  rw [or_iff_right hhead, hanswer, hback, hwhole]
  constructor
  · intro hacts
    by_cases hlen : (absolute '/' (below '/' '.' (slashes (printPath wd arg)))).length ≤ MAX_PATH
    · have heq := hacts _ (if_pos hlen)
      exact .inr (.inr (absolute_below_inj heq).symm)
    · exact .inr (.inl (by omega))
  · intro hcond v hv
    split_ifs at hv with hlen
    rw [Option.some.injEq] at hv
    rw [← hv]
    obtain hshort | hlong | hsame := hcond
    · have hnil := (cutOff_eq_nil_iff wd arg).mpr hshort
      have hprint := printPath_append_cutOff wd arg
      rw [hnil, List.append_nil] at hprint
      rw [hprint]
    · omega
    · rw [hsame]

/-- A name in the root. -/
theorem actsOnAsked_iff_name :
    ActsOnAsked ['/'] ['x'] ↔
      ['x'].head? = some '/' ∨ (['/'] ++ '/' :: ['x']).length ≤ MAX_PATH + 3 ∨
        MAX_PATH < (absolute '/' (below '/' '.' (slashes (printPath ['/'] ['x'])))).length ∨
        LeadsBack (slashes (printPath ['/'] ['x'])) (slashes (cutOff ['/'] ['x'])) :=
  actsOnAsked_iff workingDir_root ['x']

theorem workingDir_longName : WorkingDir ('/' :: longName) := by
  refine ⟨⟨[longName], entries_longName, absolute_longName⟩, ?_⟩
  rw [length_slash_longName]
  decide

/-- **`../x` in a working directory of `MAX_PATH - 1` characters** is cut to `../`: the path acted
on is `/` and not `/x`. -/
theorem cut_to_dotdot :
    ¬ ∀ wd arg, WorkingDir wd → arg ≠ [] → arg.length ≤ MAX_PATH + 31 → ActsOnAsked wd arg := by
  intro hall
  have hacts := hall ('/' :: longName) "../x".toList workingDir_longName (by decide) (by decide)
  have hprint : printPath ('/' :: longName) "../x".toList =
      '/' :: longName ++ '/' :: "../".toList := by
    unfold printPath
    rw [List.take_append, length_slash_longName,
      List.take_of_length_le (by rw [length_slash_longName]; decide)]
    rfl
  have hbelow : ∀ t : Text, below '/' '.' (slashes ('/' :: longName ++ '/' :: t)) =
      resolve '.' [longName] (pieces '/' (slashes t)) := by
    intro t
    rw [slashes_append, slashes_cons_slash t, below_append, below_longName]
  have hroot : simplifyPath (printPath ('/' :: longName) "../x".toList) = ['/'] := by
    obtain ⟨u, hu⟩ := printPath_of_slash (a := '/' :: longName) rfl "../x".toList
    rw [simplifyPath_of_slash hu, hprint, hbelow]
    rfl
  have hrelative : ¬ "../x".toList.head? = some '/' := by decide
  have hv : buildVirtualPath ('/' :: longName) (some "../x".toList) = some ['/'] := by
    simp only [buildVirtualPath, if_neg hrelative, hroot]
    rfl
  have heq := hacts _ hv
  have hwhole : wholeText ('/' :: longName) "../x".toList = '/' :: longName ++ '/' :: "../x".toList :=
    if_neg hrelative
  have hx : absolute '/' (resolve '.' [longName] (pieces '/' (slashes "../x".toList))) =
      ['/', 'x'] := rfl
  rw [hwhole, hbelow, hx] at heq
  exact absurd heq (by decide)

end ClusterFtpd
