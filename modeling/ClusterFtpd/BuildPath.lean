import ClusterFtpd.SimplifyPath

/-!
# `BuildVirtualPath` and `BuildPath`

The path a command works on is made in two steps.  `buildVirtualPath` puts the argument behind the
working directory; `buildPath` puts the result behind the user's start directory.  Both write into
a buffer of `MAX_PATH + 4` characters with `snprintf`, which cuts what does not fit, then simplify
the buffer and refuse a text of more than `MAX_PATH` characters.

Main results:

* `buildVirtualPath_canonical`: the virtual path is canonical when the working directory is;
* `buildPath_names`: the names of a built path, with the cut that `snprintf` may have made;
* `inside_buildPath_iff`: a built path lies inside the start directory except when the cut leaves
  `..` of a longer name;
* `buildPath_form`: the shape of a built path for any start directory.
-/

namespace ClusterFtpd

open PathComponents

/-- `PATH_MAX`. -/
def MAX_PATH : ℕ := 4096

/-- `snprintf(pszBuffer, MAX_PATH + 4, "%s/%s", a, b)`. -/
def printPath (a b : Text) : Text := (a ++ '/' :: b).take (MAX_PATH + 3)

/-- `CClientEntry::BuildVirtualPath`. -/
def buildVirtualPath (szWorkingDir : Text) (pszAskedPath : Option Text) : Option Text :=
  let pszBuffer :=
    match pszAskedPath with
    | some asked =>
        if asked.head? = some '/' then simplifyPath asked
        else simplifyPath (printPath szWorkingDir asked)
    | none => szWorkingDir
  if pszBuffer.length ≤ MAX_PATH then some pszBuffer else none

/-- `CClientEntry::BuildPath` of a logged-in client, with the virtual path. -/
def buildPathVirtual (startDirectory szWorkingDir : Text) (pszAskedPath : Option Text) :
    Option (Text × Text) :=
  match buildVirtualPath szWorkingDir pszAskedPath with
  | some virtualPath =>
      let pszBuffer := simplifyPath (printPath startDirectory virtualPath)
      if pszBuffer.length ≤ MAX_PATH then some (pszBuffer, virtualPath) else none
  | none => none

/-- `CClientEntry::BuildPath` of a logged-in client. -/
def buildPath (startDirectory szWorkingDir : Text) (pszAskedPath : Option Text) : Option Text :=
  (buildPathVirtual startDirectory szWorkingDir pszAskedPath).map Prod.fst

/-- A name without a backslash. -/
def IsEntry (c : Text) : Prop := IsName '/' '.' c ∧ '\\' ∉ c

instance (c : Text) : Decidable (IsEntry c) := inferInstanceAs (Decidable (_ ∧ _))

/-- An absolute path of proper names. -/
def Canonical (p : Text) : Prop := ∃ ns, (∀ c ∈ ns, IsEntry c) ∧ p = absolute '/' ns

/-- What a working directory has to be. -/
structure WorkingDir (p : Text) : Prop where
  canonical : Canonical p
  length_le : p.length ≤ MAX_PATH

theorem workingDir_root : WorkingDir ['/'] :=
  ⟨⟨[], by simp, rfl⟩, by decide⟩

/-! ### Canonical texts -/

theorem absolute_cons_eq (c : Text) (cs : List Text) :
    absolute '/' (c :: cs) = '/' :: c ++ render '/' cs := by
  simp [absolute]

theorem slash_head_absolute (ns : List Text) : ∃ w, absolute '/' ns = '/' :: w := by
  cases ns with
  | nil => exact ⟨[], rfl⟩
  | cons c cs => exact ⟨c ++ render '/' cs, by rw [absolute_cons_eq, List.cons_append]⟩

theorem Canonical.slash_head {p : Text} (h : Canonical p) : ∃ w, p = '/' :: w := by
  obtain ⟨ns, -, rfl⟩ := h
  exact slash_head_absolute ns

theorem slashes_append (x y : Text) : slashes (x ++ y) = slashes x ++ slashes y :=
  List.map_append

theorem slashes_cons_slash (y : Text) : slashes ('/' :: y) = '/' :: slashes y := rfl

theorem notMem_slashes (s : Text) : '\\' ∉ slashes s := by
  intro h
  obtain ⟨c, -, hc⟩ := List.mem_map.mp h
  split_ifs at hc with hb
  · exact absurd hc (by decide)
  · exact hb hc

theorem slashes_of_notMem {s : Text} (h : '\\' ∉ s) : slashes s = s := by
  show s.map (fun c => if c = '\\' then '/' else c) = s
  conv_rhs => rw [← List.map_id s]
  refine List.map_congr_left fun c hc => ?_
  have hne : c ≠ '\\' := fun h0 => h (h0 ▸ hc)
  rw [if_neg hne]
  rfl

theorem isEntry_of_mem_below (s : Text) : ∀ c ∈ below '/' '.' (slashes s), IsEntry c := by
  intro c hc
  refine ⟨isName_of_mem_below '/' '.' _ c hc, fun h => ?_⟩
  have hmem := mem_pieces_of_mem_below '/' '.' hc
  exact notMem_slashes s (subset_of_mem_pieces '/' hmem h)

/-- Of a text that starts with a slash the result is canonical. -/
theorem simplifyPath_of_slash {s w : Text} (h : s = '/' :: w) :
    simplifyPath s = absolute '/' (below '/' '.' (slashes s)) := by
  subst h
  refine simplifyPath_absolute (by simp) ?_
  rw [slashes_cons_slash, lead_cons_sep]

theorem canonical_simplifyPath {s w : Text} (h : s = '/' :: w) : Canonical (simplifyPath s) :=
  ⟨_, isEntry_of_mem_below s, simplifyPath_of_slash h⟩

theorem printPath_of_slash {a w : Text} (h : a = '/' :: w) (b : Text) :
    ∃ w', printPath a b = '/' :: w' := by
  subst h
  exact ⟨_, rfl⟩

/-- **The virtual path** is canonical when the working directory is. -/
theorem buildVirtualPath_canonical {wd v : Text} {arg : Option Text} (hwd : Canonical wd)
    (h : buildVirtualPath wd arg = some v) : WorkingDir v := by
  simp only [buildVirtualPath] at h
  split_ifs at h with hlen
  rw [Option.some.injEq] at h
  subst h
  refine ⟨?_, hlen⟩
  cases arg with
  | none => exact hwd
  | some asked =>
      show Canonical (if asked.head? = some '/' then simplifyPath asked
        else simplifyPath (printPath wd asked))
      by_cases ha : asked.head? = some '/'
      · rw [if_pos ha]
        cases asked with
        | nil => simp at ha
        | cons c w =>
            rw [List.head?_cons, Option.some.injEq] at ha
            subst ha
            exact canonical_simplifyPath rfl
      · rw [if_neg ha]
        obtain ⟨w, hw⟩ := hwd.slash_head
        obtain ⟨w', hw'⟩ := printPath_of_slash hw asked
        exact canonical_simplifyPath hw'

/-! ### The cut that `snprintf` makes -/

theorem names_notMem {ns : List Text} (h : ∀ c ∈ ns, IsEntry c) : ∀ c ∈ ns, '/' ∉ c :=
  fun c hc => (h c hc).1.notMem

theorem below_absolute {ns : List Text} (h : ∀ c ∈ ns, IsEntry c) :
    below '/' '.' (absolute '/' ns) = ns := by
  by_cases h0 : ns = []
  · subst h0
    rfl
  · have habs : absolute '/' ns = [] ++ render '/' ns := by simp [absolute, h0]
    rw [habs]
    exact below_render '/' '.' (by simp) fun c hc => (h c hc).1

theorem absolute_notMem {ns : List Text} (h : ∀ c ∈ ns, IsEntry c) :
    '\\' ∉ absolute '/' ns := by
  intro hmem
  have hr : '\\' ∈ render '/' ns := by
    by_cases h0 : ns = []
    · subst h0
      exact absurd hmem (by decide)
    · simpa [absolute, h0] using hmem
  obtain ⟨c, hc, hin⟩ := List.mem_flatMap.mp hr
  rcases List.mem_cons.mp hin with h1 | h1
  · exact absurd h1 (by decide)
  · exact (h c hc).2 h1

theorem Canonical.notMem {p : Text} (h : Canonical p) : '\\' ∉ p := by
  obtain ⟨ns, hns, rfl⟩ := h
  exact absolute_notMem hns

/-- The names of a built path: those of the start directory, acted on by the pieces of the virtual
path as far as it fits. -/
theorem buildPath_names {start v : Text} (hstart : ∃ w, start = '/' :: w)
    (hlen : start.length ≤ MAX_PATH) (hv : Canonical ('/' :: v)) :
    simplifyPath (printPath start ('/' :: v)) = absolute '/'
      (resolve '.' (below '/' '.' (slashes start))
        (pieces '/' (v.take (MAX_PATH + 1 - start.length)))) := by
  obtain ⟨w, hw⟩ := hstart
  have hprint : printPath start ('/' :: v) =
      start ++ '/' :: '/' :: v.take (MAX_PATH + 1 - start.length) := by
    show (start ++ '/' :: '/' :: v).take (MAX_PATH + 3) = _
    have h3 : MAX_PATH + 3 - start.length = MAX_PATH + 1 - start.length + 2 := by omega
    rw [List.take_append, List.take_of_length_le (by omega), h3]
    rfl
  have hback : '\\' ∉ v.take (MAX_PATH + 1 - start.length) := fun h =>
    hv.notMem (List.mem_cons_of_mem _ (List.mem_of_mem_take h))
  have hslash : printPath start ('/' :: v) =
      '/' :: (w ++ '/' :: '/' :: v.take (MAX_PATH + 1 - start.length)) := by
    rw [hprint, hw]
    rfl
  rw [simplifyPath_of_slash hslash, hprint, slashes_append, slashes_cons_slash,
    slashes_cons_slash, slashes_of_notMem hback, below_append, pieces_cons_sep, resolve_cons,
    resolveStep_empty]

/-- The pieces of a cut path: whole names, then what is left of one. -/
theorem pieces_take (c : Text) (cs : List Text) (hc : '/' ∉ c) (hcs : ∀ d ∈ cs, '/' ∉ d) (m : ℕ) :
    ∃ pre d, pieces '/' ((c ++ render '/' cs).take m) = pre ++ [d] ∧ pre <+: c :: cs := by
  induction cs generalizing c m with
  | nil =>
      refine ⟨[], c.take m, ?_, List.nil_prefix⟩
      rw [render_nil, List.append_nil, List.nil_append]
      exact pieces_of_notMem '/' fun h => hc (List.mem_of_mem_take h)
  | cons e es ih =>
      have he : '/' ∉ e := hcs e (by simp)
      have hes : ∀ d ∈ es, '/' ∉ d := fun d hd => hcs d (List.mem_cons_of_mem e hd)
      by_cases hm : m ≤ c.length
      · refine ⟨[], c.take m, ?_, List.nil_prefix⟩
        rw [List.take_append_of_le_length hm, List.nil_append]
        exact pieces_of_notMem '/' fun h => hc (List.mem_of_mem_take h)
      · obtain ⟨k, rfl⟩ : ∃ k, m = c.length + (k + 1) := ⟨m - c.length - 1, by omega⟩
        obtain ⟨pre, d, hpieces, hpre⟩ := ih e he hes k
        have htake : (c ++ render '/' (e :: es)).take (c.length + (k + 1)) =
            c ++ '/' :: (e ++ render '/' es).take k := by
          rw [List.take_append, List.take_of_length_le (by omega)]
          have hk : c.length + (k + 1) - c.length = k + 1 := by omega
          rw [hk]
          rfl
        refine ⟨c :: pre, d, ?_, ?_⟩
        · rw [htake, pieces_append_of_notMem '/' hc, hpieces]
          rfl
        · exact List.prefix_cons_inj c |>.mpr hpre

/-- A cut path leads below the stack it starts from, or it is `..` alone and goes up. -/
theorem prefix_resolve_take {ns : List Text} (hns : ∀ c ∈ ns, IsEntry c) {w : Text}
    (hw : absolute '/' ns = '/' :: w) (st : List Text) (m : ℕ) :
    (w.take m ≠ ['.', '.'] → st <+: resolve '.' st (pieces '/' (w.take m))) ∧
      (w.take m = ['.', '.'] → resolve '.' st (pieces '/' (w.take m)) = st.dropLast) := by
  constructor
  · intro hne
    cases ns with
    | nil =>
        have hw0 : w = [] := (List.cons.inj hw).2.symm
        subst hw0
        simp
    | cons c cs =>
        have hw0 : w = c ++ render '/' cs := by
          rw [absolute_cons_eq, List.cons_append] at hw
          exact (List.cons.inj hw).2.symm
        subst hw0
        have hc := (hns c (by simp)).1
        have hcs : ∀ d ∈ cs, '/' ∉ d := fun d hd =>
          (hns d (List.mem_cons_of_mem c hd)).1.notMem
        obtain ⟨pre, d, hpieces, hpre⟩ := pieces_take c cs hc.notMem hcs m
        have hnames : ∀ e ∈ pre, IsName '/' '.' e := fun e he => (hns e (hpre.subset he)).1
        rw [hpieces, resolve_append, resolve_names hnames, resolve_cons, resolve_nil]
        unfold resolveStep
        split_ifs with h₁ h₂
        · exact List.prefix_append st pre
        · -- the cut has left `..`, but of a later name
          subst h₂
          cases pre with
          | nil =>
              exfalso
              have htext := eq_lead_append_render '/' ((c ++ render '/' cs).take m)
              rw [lead, hpieces] at htext
              exact hne (by simpa using htext)
          | cons e es =>
              have hdrop : (st ++ e :: es).dropLast = st ++ (e :: es).dropLast :=
                List.dropLast_append_of_ne_nil (by simp)
              rw [hdrop]
              exact List.prefix_append st _
        · rw [List.append_assoc]
          exact List.prefix_append st _
  · intro heq
    rw [heq, pieces_of_notMem '/' (by decide), resolve_cons, resolve_nil, resolveStep_dotdot]

/-- Where the cut leaves `..`: it takes all but two characters of a longer name. -/
theorem take_eq_dotdot_iff {ns : List Text} (hns : ∀ c ∈ ns, IsEntry c) {w : Text}
    (hw : absolute '/' ns = '/' :: w) {m : ℕ} :
    w.take m = ['.', '.'] ↔ m = 2 ∧ ['.', '.'] <+: w := by
  constructor
  · intro h
    have hpre : ['.', '.'] <+: w := h ▸ List.take_prefix m w
    refine ⟨?_, hpre⟩
    obtain ⟨r, hr⟩ := hpre
    have hrne : r ≠ [] := by
      rintro rfl
      have hb := below_absolute hns
      rw [hw, ← hr] at hb
      have hns0 : ns = [] := hb.symm
      subst hns0
      simp [absolute, ← hr] at hw
    have hlen := congrArg List.length h
    have hrlen := congrArg List.length hr
    have hrpos := List.length_pos_of_ne_nil hrne
    simp only [List.length_take, List.length_append, List.length_cons, List.length_nil]
      at hlen hrlen
    omega
  · rintro ⟨rfl, r, rfl⟩
    rfl

/-! ### The start directory as a jail -/

/-- The simplified start directory itself, or a path below it; any absolute path when it is `/`. -/
def Inside (startDirectory p : Text) : Prop :=
  if simplifyPath startDirectory = ['/'] then p.head? = some '/'
  else p = simplifyPath startDirectory ∨ (simplifyPath startDirectory ++ ['/']) <+: p

theorem absolute_eq_root_iff {ns : List Text} (hns : ∀ c ∈ ns, IsEntry c) :
    absolute '/' ns = ['/'] ↔ ns = [] := by
  constructor
  · intro h
    have hb := below_absolute hns
    rw [h] at hb
    exact hb.symm
  · rintro rfl
    rfl

/-- Inside, in names. -/
theorem inside_iff_names {start w : Text} (hstart : start = '/' :: w) {ns : List Text}
    (hns : ∀ c ∈ ns, IsEntry c) :
    Inside start (absolute '/' ns) ↔ below '/' '.' (slashes start) <+: ns := by
  have hS := isEntry_of_mem_below start
  unfold Inside
  rw [simplifyPath_of_slash hstart]
  generalize below '/' '.' (slashes start) = S at hS
  by_cases h0 : S = []
  · subst h0
    obtain ⟨v, hv⟩ := slash_head_absolute ns
    simp [absolute_eq_root_iff, hv, List.nil_prefix]
  · rw [if_neg fun h => h0 ((absolute_eq_root_iff hS).mp h)]
    have habsS : absolute '/' S = render '/' S := by simp [absolute, h0]
    constructor
    · rintro (h | ⟨r, hr⟩)
      · have hb := congrArg (below '/' '.') h
        rw [below_absolute hns, below_absolute hS] at hb
        rw [hb]
      · have hb := congrArg (below '/' '.') hr
        have hcut : render '/' S ++ ['/'] ++ r = render '/' S ++ '/' :: r := by simp
        have hbS : below '/' '.' (render '/' S) = S := by
          rw [← habsS]
          exact below_absolute hS
        have hpieces : pieces '/' (render '/' S ++ '/' :: r) = [] :: (S ++ pieces '/' r) := by
          have hrender := pieces_render '/' (l := []) (by simp) (names_notMem hS)
          rw [List.nil_append] at hrender
          rw [pieces_append, hrender, List.cons_append]
        have hns0 : ns ≠ [] := by
          rintro rfl
          have hlen := congrArg List.length hr
          obtain ⟨v, hv⟩ := slash_head_absolute S
          rw [hv] at hlen
          simp [absolute] at hlen
        have habsN : absolute '/' ns = render '/' ns := by simp [absolute, hns0]
        have hrenderN := pieces_render '/' (l := []) (by simp) (names_notMem hns)
        rw [List.nil_append] at hrenderN
        rw [habsS, hcut, habsN] at hr
        rw [hr, hrenderN, List.cons.injEq] at hpieces
        exact ⟨_, hpieces.2.symm⟩
    · rintro ⟨r, rfl⟩
      cases r with
      | nil => exact .inl (by rw [List.append_nil])
      | cons c cs =>
          right
          refine ⟨c ++ render '/' cs, ?_⟩
          simp [absolute, h0]

/-- **The jail.**  A built path is canonical and fits the buffer, and it lies inside the start
directory except where the cut leaves `..` of the first name of the virtual path. -/
theorem inside_buildPath_iff {start wd p v : Text} {arg : Option Text}
    (hstart : start.head? = some '/') (hlen : start.length ≤ MAX_PATH) (hwd : Canonical wd)
    (h : buildPathVirtual start wd arg = some (p, v)) :
    WorkingDir p ∧ (Inside start p ↔
      ¬ (start.length + 1 = MAX_PATH ∧ ['/', '.', '.'] <+: v ∧ simplifyPath start ≠ ['/'])) := by
  obtain ⟨w, hw⟩ : ∃ w, start = '/' :: w := by
    cases start with
    | nil => simp at hstart
    | cons c w =>
        rw [List.head?_cons, Option.some.injEq] at hstart
        exact ⟨w, by rw [hstart]⟩
  unfold buildPathVirtual at h
  cases hv : buildVirtualPath wd arg with
  | none => simp [hv] at h
  | some v' =>
      simp only [hv] at h
      split_ifs at h with hmax
      simp only [Option.some.injEq, Prod.mk.injEq] at h
      obtain ⟨rfl, rfl⟩ := h
      obtain ⟨ns, hns, hvns⟩ := (buildVirtualPath_canonical hwd hv).canonical
      obtain ⟨u, hu⟩ := slash_head_absolute ns
      rw [hu] at hvns
      subst hvns
      have hcanon : Canonical ('/' :: u) := ⟨ns, hns, hu.symm⟩
      obtain ⟨w', hw'⟩ := printPath_of_slash hw ('/' :: u)
      refine ⟨⟨canonical_simplifyPath hw', hmax⟩, ?_⟩
      have hS := isEntry_of_mem_below start
      have hroot : simplifyPath start = ['/'] ↔ below '/' '.' (slashes start) = [] := by
        rw [simplifyPath_of_slash hw]
        exact absolute_eq_root_iff hS
      have hnames := buildPath_names ⟨w, hw⟩ hlen hcanon
      have hentries : ∀ c ∈ resolve '.' (below '/' '.' (slashes start))
          (pieces '/' (u.take (MAX_PATH + 1 - start.length))), IsEntry c := by
        have hnamesAll : ∀ c ∈ resolve '.' (below '/' '.' (slashes start))
            (pieces '/' (u.take (MAX_PATH + 1 - start.length))), IsName '/' '.' c :=
          isName_of_mem_resolve (fun c hc => (hS c hc).1) fun c hc => notMem_of_mem_pieces '/' hc
        intro c hc
        refine ⟨hnamesAll c hc, fun hback => ?_⟩
        rcases mem_or_mem_of_mem_resolve '.' hc with hc' | hc'
        · exact (hS c hc').2 hback
        · have hin := List.mem_of_mem_take (subset_of_mem_pieces '/' hc' hback)
          exact hcanon.notMem (List.mem_cons_of_mem _ hin)
      rw [hnames, inside_iff_names hw hentries]
      obtain ⟨hdown, hup⟩ := prefix_resolve_take hns hu (below '/' '.' (slashes start))
        (MAX_PATH + 1 - start.length)
      have hdots := take_eq_dotdot_iff hns hu (m := MAX_PATH + 1 - start.length)
      have hpre : ['/', '.', '.'] <+: '/' :: u ↔ ['.', '.'] <+: u := List.prefix_cons_inj '/'
      rw [hpre]
      constructor
      · rintro hprefix ⟨hm, hdd, hne⟩
        have htake := hdots.mpr ⟨by omega, hdd⟩
        rw [hup htake] at hprefix
        have hSne : below '/' '.' (slashes start) ≠ [] := fun h0 => hne (hroot.mpr h0)
        have hle := hprefix.length_le
        have hpos := List.length_pos_of_ne_nil hSne
        rw [List.length_dropLast] at hle
        omega
      · intro hno
        by_cases htake : u.take (MAX_PATH + 1 - start.length) = ['.', '.']
        · obtain ⟨hm, hdd⟩ := hdots.mp htake
          have hS0 : below '/' '.' (slashes start) = [] := by
            by_contra hne
            exact hno ⟨by omega, hdd, fun h0 => hne (hroot.mp h0)⟩
          rw [hS0]
          exact List.nil_prefix
        · exact hdown htake

/-- **Any start directory.**  A built path is a lead without slashes, followed by names or by one
slash. -/
theorem buildPath_form {start wd p : Text} {arg : Option Text}
    (h : buildPath start wd arg = some p) :
    ∃ l ns, '/' ∉ l ∧ '\\' ∉ l ∧ (∀ c ∈ ns, IsEntry c) ∧
      (p = l ++ render '/' ns ∨ p = l ++ ['/']) := by
  unfold buildPath buildPathVirtual at h
  cases hv : buildVirtualPath wd arg with
  | none => simp [hv] at h
  | some v =>
      simp only [hv] at h
      split_ifs at h with hmax
      · simp only [Option.map_some, Option.some.injEq] at h
        subst h
        have hne : printPath start v ≠ [] := by
          cases start with
          | nil => simp [printPath, MAX_PATH]
          | cons c w => simp [printPath, MAX_PATH]
        exact simplifyPath_form hne
      · simp at h

/-- A canonical path is left as it is. -/
theorem simplifyPath_canonical {p : Text} (h : Canonical p) : simplifyPath p = p := by
  obtain ⟨ns, hns, rfl⟩ := h
  obtain ⟨w, hw⟩ := slash_head_absolute ns
  rw [simplifyPath_of_slash hw, slashes_of_notMem (absolute_notMem hns), below_absolute hns]

/-- A user who starts at the root is given every canonical path as it is. -/
theorem buildPath_root {p : Text} (hp : Canonical p) (hlen : p.length ≤ MAX_PATH) (wd : Text) :
    buildPath ['/'] wd (some p) = some p := by
  obtain ⟨ns, hns, rfl⟩ := hp
  obtain ⟨u, hu⟩ := slash_head_absolute ns
  have hsimp := simplifyPath_canonical ⟨ns, hns, rfl⟩
  have hvirtual : buildVirtualPath wd (some (absolute '/' ns)) = some (absolute '/' ns) := by
    have hhead : (absolute '/' ns).head? = some '/' := by rw [hu, List.head?_cons]
    simp only [buildVirtualPath, hhead, if_true, hsimp, hlen]
  have hbuilt : simplifyPath (printPath ['/'] (absolute '/' ns)) = absolute '/' ns := by
    have hcanon : Canonical ('/' :: u) := ⟨ns, hns, hu.symm⟩
    have hulen : u.length ≤ MAX_PATH := by
      rw [hu, List.length_cons] at hlen
      omega
    have htake : u.take (MAX_PATH + 1 - ['/'].length) = u := List.take_of_length_le (by simpa)
    have hroot : below '/' '.' (slashes ['/']) = [] := rfl
    have hbelow := below_absolute hns
    rw [hu, below_cons_sep] at hbelow
    rw [hu, buildPath_names ⟨[], rfl⟩ (by decide) hcanon, htake, hroot, hbelow, hu]
  show (buildPathVirtual ['/'] wd (some (absolute '/' ns))).map Prod.fst = _
  simp only [buildPathVirtual, hvirtual, hbuilt, hlen, if_true, Option.map_some]

end ClusterFtpd
