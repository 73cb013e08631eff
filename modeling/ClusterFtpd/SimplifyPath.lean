import ClusterFtpd.Redis
import ClusterFtpd.Lib.PathComponents

/-!
# `SimplifyPath`: the in-place simplifier

`simplifyPath` follows the passes of `CFtpServer::SimplifyPath` over the character buffer.  A
pointer into the buffer is the cut of the text at that place: `strstr` answers with what stands
before the match and what starts at it, and a `memmove` puts a shorter text in their place.

The passes are compared with the reading of a path as a list of names (`PathComponents.below`).
Each rewriting step keeps the lead of the text and the names below it; at the exits no special
piece is left.

Main results:

* `simplifyPath_absolute`: of a text that starts with a slash the result is the absolute path with
  the names the text leads to;
* `simplifyPath_form`: of any text the result is a lead followed by names, with no backslash.
-/

namespace ClusterFtpd

open PathComponents

/-- `strstr`: what stands before the first place where `pat` starts, and the text from there. -/
def strstr (pat : Text) : Text → Option (Text × Text)
  | [] => if pat = [] then some ([], []) else none
  | c :: cs =>
      if pat.isPrefixOf (c :: cs) then some ([], c :: cs)
      else (strstr pat cs).map fun (x, a) => (c :: x, a)

theorem strstr_some {pat s x a : Text} (h : strstr pat s = some (x, a)) :
    s = x ++ a ∧ pat <+: a := by
  induction s generalizing x with
  | nil =>
      simp only [strstr] at h
      split_ifs at h with hp
      simp only [Option.some.injEq, Prod.mk.injEq] at h
      obtain ⟨rfl, rfl⟩ := h
      simp [hp]
  | cons c cs ih =>
      simp only [strstr] at h
      split_ifs at h with hp
      · simp only [Option.some.injEq, Prod.mk.injEq] at h
        obtain ⟨rfl, rfl⟩ := h
        exact ⟨rfl, List.isPrefixOf_iff_prefix.mp hp⟩
      · rw [Option.map_eq_some_iff] at h
        obtain ⟨⟨y, b⟩, hy, hxa⟩ := h
        simp only [Prod.mk.injEq] at hxa
        obtain ⟨rfl, rfl⟩ := hxa
        obtain ⟨rfl, hpre⟩ := ih hy
        exact ⟨rfl, hpre⟩

/-- The match of `strstr` is the first one. -/
theorem strstr_first {pat s x a z w : Text} (h : strstr pat s = some (x, a)) (hs : s = z ++ w)
    (hw : pat <+: w) : x.length ≤ z.length := by
  induction s generalizing x z with
  | nil =>
      have hx := (strstr_some h).1
      simp only [List.nil_eq, List.append_eq_nil_iff] at hx
      simp [hx.1]
  | cons c cs ih =>
      simp only [strstr] at h
      split_ifs at h with hp
      · simp only [Option.some.injEq, Prod.mk.injEq] at h
        simp [← h.1]
      · rw [Option.map_eq_some_iff] at h
        obtain ⟨⟨y, b⟩, hy, hxa⟩ := h
        simp only [Prod.mk.injEq] at hxa
        obtain ⟨rfl, rfl⟩ := hxa
        cases z with
        | nil =>
            rw [List.nil_append] at hs
            subst hs
            exact absurd (List.isPrefixOf_iff_prefix.mpr hw) hp
        | cons d z =>
            simp only [List.cons_append, List.cons.injEq] at hs
            simpa using ih hy hs.2

theorem strstr_none {pat s z w : Text} (h : strstr pat s = none) (hs : s = z ++ w) :
    ¬ pat <+: w := by
  induction s generalizing z with
  | nil =>
      simp only [List.nil_eq, List.append_eq_nil_iff] at hs
      obtain ⟨rfl, rfl⟩ := hs
      simp only [strstr] at h
      split_ifs at h with hp
      simpa using hp
  | cons c cs ih =>
      simp only [strstr] at h
      split_ifs at h with hp
      rw [Option.map_eq_none_iff] at h
      cases z with
      | nil =>
          rw [List.nil_append] at hs
          subst hs
          exact fun hw => hp (List.isPrefixOf_iff_prefix.mpr hw)
      | cons d z =>
          simp only [List.cons_append, List.cons.injEq] at hs
          exact ih h hs.2

theorem length_of_strstr {pat s x a : Text} (h : strstr pat s = some (x, a)) :
    s.length = x.length + a.length ∧ pat.length ≤ a.length := by
  obtain ⟨rfl, hp⟩ := strstr_some h
  exact ⟨List.length_append, hp.length_le⟩

/-! ### The passes -/

/-- `for (a = pszPath; *a; ++a) if (*a == '\\') *a = '/'`. -/
def slashes (s : Text) : Text := s.map fun c => if c = '\\' then '/' else c

/-- `while ((a = strstr(pszPath, "//"))) memmove(a, a + 1, strlen(a))`. -/
def squeezeSlashes (s : Text) : Text :=
  match _h : strstr ['/', '/'] s with
  | none => s
  | some (x, a) => squeezeSlashes (x ++ a.drop 1)
termination_by s.length
decreasing_by
  have hlen := length_of_strstr _h
  simp only [List.length_cons, List.length_nil] at hlen
  simp only [List.length_append, List.length_drop]
  omega

/-- `while ((a = strstr(pszPath, "/./"))) memmove(a, a + 2, strlen(a + 1))`. -/
def dropDots (s : Text) : Text :=
  match _h : strstr ['/', '.', '/'] s with
  | none => s
  | some (x, a) => dropDots (x ++ a.drop 2)
termination_by s.length
decreasing_by
  have hlen := length_of_strstr _h
  simp only [List.length_cons, List.length_nil] at hlen
  simp only [List.length_append, List.length_drop]
  omega

/-- The two `strncmp` tests: a leading `./` loses its dot, then a leading `../` its two. -/
def dropLeadingDots (s : Text) : Text :=
  let s := if ['.', '/'].isPrefixOf s then s.drop 1 else s
  if ['.', '.', '/'].isPrefixOf s then s.drop 2 else s

/-- `if ((a = strstr(pszPath, "/.")) && a[2] == '\0') a[1] = '\0'`. -/
def cutFirstDot (s : Text) : Text :=
  match strstr ['/', '.'] s with
  | some (x, a) => if a.length = 2 then x ++ ['/'] else s
  | none => s

/-- The loop that removes an ending `.`; `x` is what stands before the pointer. -/
def cutLastDot (x a : Text) : Text :=
  match _h : strstr ['/', '.'] a with
  | none => x ++ a
  | some (y, b) =>
      if b.length = 2 then cutLastDot (x ++ y) ['/'] else cutLastDot (x ++ y ++ b.take 1) (b.drop 1)
termination_by a.length
decreasing_by
  all_goals
    have hlen := length_of_strstr _h
    simp only [List.length_cons, List.length_nil] at hlen
    simp only [List.length_cons, List.length_nil, List.length_drop]
    omega

/-- The inner loop of the next pass: the text before and after the last slash. -/
def lastSlash : Text → Option (Text × Text)
  | [] => none
  | c :: cs =>
      match lastSlash cs with
      | some (u, v) => some (c :: u, v)
      | none => if c = '/' then some ([], cs) else none

/-- `isalpha(pszPath[0]) && pszPath[1] == ':'`. -/
def isDrive : Text → Bool
  | c :: d :: _ => c.isAlpha && d == ':'
  | _ => false

theorem lastSlash_some {s u v : Text} (h : lastSlash s = some (u, v)) :
    s = u ++ '/' :: v ∧ '/' ∉ v := by
  induction s generalizing u with
  | nil => simp [lastSlash] at h
  | cons c cs ih =>
      rw [lastSlash] at h
      cases hl : lastSlash cs with
      | some p =>
          obtain ⟨u', v'⟩ := p
          rw [hl] at h
          simp only [Option.some.injEq, Prod.mk.injEq] at h
          obtain ⟨rfl, rfl⟩ := h
          obtain ⟨rfl, hv⟩ := ih hl
          exact ⟨rfl, hv⟩
      | none =>
          rw [hl] at h
          simp only at h
          split_ifs at h with hc
          simp only [Option.some.injEq, Prod.mk.injEq] at h
          obtain ⟨rfl, rfl⟩ := h
          subst hc
          refine ⟨rfl, ?_⟩
          clear ih
          induction cs with
          | nil => simp
          | cons d ds ih =>
              rw [lastSlash] at hl
              cases hd : lastSlash ds with
              | some p => simp [hd] at hl
              | none =>
                  rw [hd] at hl
                  simp only at hl
                  split_ifs at hl with hds
                  simpa [Ne.symm hds] using ih hd

theorem lastSlash_none {s : Text} (h : lastSlash s = none) : '/' ∉ s := by
  induction s with
  | nil => simp
  | cons c cs ih =>
      rw [lastSlash] at h
      cases hl : lastSlash cs with
      | some p => simp [hl] at h
      | none =>
          rw [hl] at h
          simp only at h
          split_ifs at h with hc
          simpa [Ne.symm hc] using ih hl

/-- The loop over `/..`: `x` is what stands before the pointer `a`. -/
def cutDotDots (x a : Text) : Text :=
  match _h : strstr ['/', '.', '.'] a with
  | none => x ++ a
  | some (y, b) =>
      if b[3]? = some '/' then
        if x ++ y = [] then cutDotDots [] (b.drop 3)
        else
          match _hl : lastSlash (x ++ y) with
          | some (u, _) => cutDotDots [] (u ++ b.drop 3)
          | none => cutDotDots [] (x ++ y ++ b.drop 3)
      else if b[3]? = none then
        if x ++ y = [] then ['/']
        else
          match _hl : lastSlash (x ++ y) with
          | some (u, _) =>
              if u = [] ∨ (u.length = 2 ∧ isDrive (x ++ y)) then cutDotDots [] (u ++ ['/'])
              else cutDotDots [] u
          | none => cutDotDots [] (x ++ y ++ ['/'])
      else cutDotDots (x ++ y ++ b.take 1) (b.drop 1)
termination_by (x.length + a.length, a.length)
decreasing_by
  all_goals
    have hlen := length_of_strstr _h
    simp only [List.length_cons, List.length_nil] at hlen
    try
      have hcut := congrArg List.length (lastSlash_some _hl).1
      simp only [List.length_append, List.length_cons] at hcut
    simp only [Prod.lex_def, List.length_append, List.length_cons, List.length_nil,
      List.length_drop, List.length_take]
    omega

/-- The removal of an ending slash. -/
def cutEndingSlash (s : Text) : Text :=
  if isDrive s ∧ s[2]? = some '/' then
    if s.length > 3 ∧ s.getLast? = some '/' then s.dropLast else s
  else if s.head? = some '/' then
    if s.length > 1 ∧ s.getLast? = some '/' then s.dropLast else s
  else if s.getLast? = some '/' then s.dropLast else s

/-- `CFtpServer::SimplifyPath`. -/
def simplifyPath (s : Text) : Text :=
  if s = [] then s
  else
    let s := cutFirstDot (dropLeadingDots (dropDots (squeezeSlashes (slashes s))))
    let s := cutEndingSlash (cutDotDots [] (cutLastDot [] s))
    if s = [] ∨ s = ['.', '.'] ∨ s = ['.'] then ['/'] else s

/-! ### What a rewriting step keeps -/

/-- `t` has the lead of `s` and leads to the same names. -/
structure Keeps (s t : Text) : Prop where
  lead_eq : lead '/' t = lead '/' s
  below_eq : below '/' '.' t = below '/' '.' s

theorem Keeps.refl (s : Text) : Keeps s s := ⟨rfl, rfl⟩

theorem Keeps.trans {s t u : Text} (h₁ : Keeps s t) (h₂ : Keeps t u) : Keeps s u :=
  ⟨h₂.lead_eq.trans h₁.lead_eq, h₂.below_eq.trans h₁.below_eq⟩

/-- Pieces that do nothing to the stack of names may go. -/
theorem Keeps.of_resolve (x y z : Text)
    (h : ∀ st, resolve '.' st (pieces '/' z) = resolve '.' st (pieces '/' y)) :
    Keeps (x ++ '/' :: y) (x ++ '/' :: z) := by
  refine ⟨?_, ?_⟩
  · rw [lead_append, lead_append]
  · rw [below_append, below_append, h]

theorem squeezeSlashes_keeps (s : Text) : Keeps s (squeezeSlashes s) := by
  fun_induction squeezeSlashes s with
  | case1 s h => exact Keeps.refl s
  | case2 s x a h ih =>
      obtain ⟨rfl, w, rfl⟩ := strstr_some h
      refine Keeps.trans ?_ ih
      show Keeps (x ++ '/' :: ('/' :: w)) (x ++ '/' :: w)
      apply Keeps.of_resolve
      intro st
      rw [pieces_cons_sep, resolve_cons, resolveStep_empty]

theorem squeezeSlashes_inner (s : Text) : [] ∉ inner '/' (squeezeSlashes s) := by
  fun_induction squeezeSlashes s with
  | case1 s h =>
      intro hmem
      obtain ⟨z, w, hs⟩ := exists_cut_of_mem_inner '/' hmem
      exact strstr_none h hs ⟨w, rfl⟩
  | case2 s x a h ih => exact ih

theorem dropDots_keeps (s : Text) : Keeps s (dropDots s) := by
  fun_induction dropDots s with
  | case1 s h => exact Keeps.refl s
  | case2 s x a h ih =>
      obtain ⟨rfl, w, rfl⟩ := strstr_some h
      refine Keeps.trans ?_ ih
      show Keeps (x ++ '/' :: (['.'] ++ '/' :: w)) (x ++ '/' :: w)
      apply Keeps.of_resolve
      intro st
      rw [pieces_append_of_notMem '/' (by decide), resolve_cons, resolveStep_dot]

theorem dropDots_inner (s : Text) (hs : [] ∉ inner '/' s) :
    ∀ p ∈ inner '/' (dropDots s), p ≠ [] ∧ p ≠ ['.'] := by
  fun_induction dropDots s with
  | case1 s h =>
      intro p hp
      refine ⟨fun h0 => hs (h0 ▸ hp), ?_⟩
      rintro rfl
      obtain ⟨z, w, hcut⟩ := exists_cut_of_mem_inner '/' hp
      exact strstr_none h hcut ⟨w, rfl⟩
  | case2 s x a h ih =>
      obtain ⟨rfl, w, rfl⟩ := strstr_some h
      apply ih
      intro hmem
      apply hs
      have hold : inner '/' (x ++ '/' :: (['.'] ++ '/' :: w)) =
          (pieces '/' x).tail ++ (['.'] :: (pieces '/' w).dropLast) := by
        rw [inner_append, pieces_append_of_notMem '/' (by decide),
          List.dropLast_cons_of_ne_nil (pieces_ne_nil '/' w)]
      have hnew : inner '/' (x ++ '/' :: w) =
          (pieces '/' x).tail ++ (pieces '/' w).dropLast := inner_append '/' x w
      have hmem' : [] ∈ (pieces '/' x).tail ++ (pieces '/' w).dropLast := hnew ▸ hmem
      show [] ∈ inner '/' (x ++ '/' :: (['.'] ++ '/' :: w))
      rw [hold]
      rw [List.mem_append] at hmem' ⊢
      exact hmem'.imp_right (List.mem_cons_of_mem _)

/-- A leading `./` or `../` only changes the lead, and leaves it empty. -/
theorem dropLeadingDots_cases (s : Text) :
    dropLeadingDots s = s ∨
      ∃ x w, s = x ++ '/' :: w ∧ '/' ∉ x ∧ dropLeadingDots s = '/' :: w ∧ x ≠ [] := by
  by_cases h₁ : ['.', '/'].isPrefixOf s
  · obtain ⟨w, rfl⟩ := List.isPrefixOf_iff_prefix.mp h₁
    exact .inr ⟨['.'], w, rfl, by decide, rfl, by decide⟩
  · by_cases h₂ : ['.', '.', '/'].isPrefixOf s
    · obtain ⟨w, rfl⟩ := List.isPrefixOf_iff_prefix.mp h₂
      exact .inr ⟨['.', '.'], w, rfl, by decide, rfl, by decide⟩
    · refine .inl ?_
      simp only [dropLeadingDots, if_neg h₁, if_neg h₂]

theorem dropLeadingDots_below (s : Text) :
    below '/' '.' (dropLeadingDots s) = below '/' '.' s := by
  rcases dropLeadingDots_cases s with h | ⟨x, w, rfl, hx, h, -⟩
  · rw [h]
  · rw [h, below_cons_sep, below_append, below_of_notMem '/' '.' hx]

theorem dropLeadingDots_inner (s : Text) : inner '/' (dropLeadingDots s) = inner '/' s := by
  rcases dropLeadingDots_cases s with h | ⟨x, w, rfl, hx, h, -⟩
  · rw [h]
  · rw [h, inner_append, pieces_of_notMem '/' hx]
    have h0 := inner_append '/' [] w
    rw [pieces_nil] at h0
    exact h0

theorem dropLeadingDots_lead (s : Text) :
    lead '/' (dropLeadingDots s) = lead '/' s ∨ lead '/' (dropLeadingDots s) = [] := by
  rcases dropLeadingDots_cases s with h | ⟨x, w, rfl, hx, h, -⟩
  · exact .inl (by rw [h])
  · exact .inr (by rw [h, lead_cons_sep])

/-- A final dot after a slash does nothing. -/
theorem keeps_cut_dot (z : Text) : Keeps (z ++ ['/', '.']) (z ++ ['/']) := by
  show Keeps (z ++ '/' :: ['.']) (z ++ '/' :: [])
  apply Keeps.of_resolve
  intro st
  rw [pieces_of_notMem '/' (s := ['.']) (by decide), pieces_nil, resolve_cons, resolve_cons,
    resolveStep_empty, resolveStep_dot]

theorem inner_cut_dot (z : Text) : inner '/' (z ++ ['/', '.']) = inner '/' (z ++ ['/']) := by
  show inner '/' (z ++ '/' :: ['.']) = inner '/' (z ++ '/' :: [])
  rw [inner_append, inner_append, pieces_of_notMem '/' (s := ['.']) (by decide), pieces_nil]
  rfl

theorem cutFirstDot_cases (s : Text) :
    cutFirstDot s = s ∨ ∃ z, s = z ++ ['/', '.'] ∧ cutFirstDot s = z ++ ['/'] := by
  cases h : strstr ['/', '.'] s with
  | none => exact .inl (by simp [cutFirstDot, h])
  | some p =>
      obtain ⟨x, a⟩ := p
      obtain ⟨rfl, w, rfl⟩ := strstr_some h
      by_cases hlen : (['/', '.'] ++ w).length = 2
      · have hw : w = [] := by
          rw [List.length_append] at hlen
          simpa using hlen
        subst hw
        rw [List.append_nil] at h
        exact .inr ⟨x, rfl, by simp only [List.append_nil, cutFirstDot, h]; rfl⟩
      · exact .inl (by simp only [cutFirstDot, h, if_neg hlen])

theorem cutLastDot_cases (x a : Text) :
    (∃ z, a = z ++ ['/', '.'] ∧ cutLastDot x a = x ++ z ++ ['/']) ∨
      ((∀ z, a ≠ z ++ ['/', '.']) ∧ cutLastDot x a = x ++ a) := by
  fun_induction cutLastDot x a with
  | case1 x a h =>
      refine .inr ⟨?_, rfl⟩
      intro z hz
      exact strstr_none h hz ⟨[], rfl⟩
  | case2 x a y b h hlen ih =>
      obtain ⟨rfl, w, rfl⟩ := strstr_some h
      have hw : w = [] := by
        rw [List.length_append] at hlen
        simpa using hlen
      subst hw
      refine .inl ⟨y, rfl, ?_⟩
      rcases ih with ⟨z, hz, -⟩ | ⟨-, hres⟩
      · have := congrArg List.length hz
        simp at this
      · rw [hres]
  | case3 x a y b h hlen ih =>
      obtain ⟨rfl, w, rfl⟩ := strstr_some h
      have hw : w ≠ [] := by
        rintro rfl
        exact hlen rfl
      rcases ih with ⟨z, hz, hres⟩ | ⟨hno, hres⟩
      · refine .inl ⟨y ++ '/' :: z, ?_, ?_⟩
        · have hz' : '.' :: w = z ++ ['/', '.'] := hz
          show y ++ '/' :: ('.' :: w) = y ++ '/' :: z ++ ['/', '.']
          rw [hz', List.append_assoc, List.cons_append]
        · rw [hres]
          simp
      · refine .inr ⟨?_, ?_⟩
        · intro z hz
          have hno' : ∀ z, '.' :: w ≠ z ++ ['/', '.'] := hno
          -- the two final characters of `y ++ "/." ++ w` are those of `"." ++ w`
          obtain ⟨z', rfl⟩ : ∃ z', z = y ++ '/' :: z' := by
            have hz' : (y ++ ['/']) ++ ('.' :: w) = z ++ ['/', '.'] := by simpa using hz
            rcases List.append_eq_append_iff.mp hz' with ⟨t, ht, -⟩ | ⟨t, ht, htw⟩
            · exact ⟨t, by simpa using ht⟩
            · exfalso
              cases t with
              | nil => exact hno' [] (by simpa using htw.symm)
              | cons c t =>
                  cases t with
                  | nil =>
                      simp only [List.cons_append, List.nil_append, List.cons.injEq] at htw
                      exact hw htw.2.2.symm
                  | cons d t =>
                      have := congrArg List.length htw
                      simp only [List.length_cons, List.length_append, List.length_nil] at this
                      have hwpos := List.length_pos_of_ne_nil hw
                      omega
          apply hno' z'
          have := hz
          simp only [List.append_assoc, List.cons_append, List.nil_append, List.append_cancel_left_eq,
            List.cons.injEq, true_and] at this
          simpa using this
        · rw [hres]
          simp

/-! ### Going up -/

/-- No empty piece but the last, and no `.` piece. -/
structure Tidy (s : Text) : Prop where
  inner_ne_nil : [] ∉ inner '/' s
  ne_dot : ['.'] ∉ (pieces '/' s).tail

theorem Tidy.of_pieces {s t : Text} (hs : Tidy s) (hin : ∀ p ∈ inner '/' t, p ∈ inner '/' s)
    (htail : ∀ p ∈ (pieces '/' t).tail, p = [] ∨ p ∈ (pieces '/' s).tail) : Tidy t := by
  refine ⟨fun h => hs.inner_ne_nil (hin _ h), fun h => ?_⟩
  rcases htail _ h with h0 | h0
  · exact absurd h0 (by decide)
  · exact hs.ne_dot h0

/-- `..` below the lead, or at the root, does nothing. -/
theorem up_from_lead {x : Text} (hx : '/' ∉ x) (q : Text) :
    Keeps (x ++ '/' :: (['.', '.'] ++ '/' :: q)) (x ++ '/' :: q) := by
  refine ⟨by rw [lead_append, lead_append], ?_⟩
  rw [below_append, below_append, below_of_notMem '/' '.' hx,
    pieces_append_of_notMem '/' (by decide), resolve_cons, resolveStep_dotdot]
  rfl

theorem up_from_lead_end {x : Text} (hx : '/' ∉ x) :
    Keeps (x ++ '/' :: ['.', '.']) (x ++ '/' :: []) := by
  refine ⟨by rw [lead_append, lead_append], ?_⟩
  rw [below_append, below_append, below_of_notMem '/' '.' hx,
    pieces_of_notMem '/' (s := ['.', '.']) (by decide), pieces_nil, resolve_cons, resolve_cons,
    resolveStep_dotdot, resolveStep_empty]
  rfl

/-- A name and the `..` after it cancel out. -/
theorem resolve_up {v : Text} (h₁ : v ≠ []) (h₂ : v ≠ ['.']) (h₃ : v ≠ ['.', '.'])
    (st cs : List Text) : resolve '.' st (v :: ['.', '.'] :: cs) = resolve '.' st cs := by
  rw [resolve_cons, resolve_cons, resolveStep_of_ne '.' st h₁ h₂ h₃, resolveStep_dotdot,
    List.dropLast_concat]

/-- What the loop over `/..` knows of the text before its pointer. -/
def Passed (x a : Text) : Prop :=
  x = [] ∨ ∃ x₀, x = x₀ ++ ['/'] ∧ ['.', '.'] ∉ (pieces '/' x₀).tail ∧ lead '/' a ≠ ['.', '.']

theorem exists_infix_of_dotdot {y : Text} (h : ['.', '.'] ∈ (pieces '/' y).tail) :
    ∃ z w, y = z ++ w ∧ ['/', '.', '.'] <+: w := by
  obtain ⟨cs, ds, hcut⟩ := List.append_of_mem h
  exact ⟨_, _, cut_at_piece '/' hcut, ⟨_, rfl⟩⟩

theorem Passed.notMem {x y r : Text} (hp : Passed x (y ++ r)) (hr : r = [] ∨ ∃ w, r = '/' :: w)
    (hy : ∀ z w, y = z ++ w → ¬ ['/', '.', '.'] <+: w) :
    ['.', '.'] ∉ (pieces '/' (x ++ y)).tail := by
  have hytail : ['.', '.'] ∉ (pieces '/' y).tail := by
    intro h
    obtain ⟨z, w, hzw, hpre⟩ := exists_infix_of_dotdot h
    exact hy z w hzw hpre
  rcases hp with rfl | ⟨x₀, rfl, hx₀, hlead⟩
  · exact hytail
  · have hly : lead '/' y ≠ ['.', '.'] := by
      rcases hr with rfl | ⟨w, rfl⟩
      · rwa [List.append_nil] at hlead
      · rwa [lead_append] at hlead
    have hx : x₀ ++ ['/'] ++ y = x₀ ++ '/' :: y := by simp
    rw [hx, tail_pieces_append, pieces_eq_lead_cons '/' y]
    intro hmem
    rw [List.mem_append, List.mem_cons] at hmem
    rcases hmem with h | h | h
    · exact hx₀ h
    · exact hly h.symm
    · exact hytail h

/-- Before the match there is no other one. -/
theorem notPrefix_before_match {y b : Text} (h : strstr ['/', '.', '.'] (y ++ b) = some (y, b)) :
    ∀ z w, y = z ++ w → ¬ ['/', '.', '.'] <+: w := by
  rintro z w rfl hw
  have hlen := strstr_first h (z := z) (w := w ++ b) (by simp)
    (hw.trans (List.prefix_append w b))
  have hw0 := hw.length_le
  simp only [List.length_append, List.length_cons, List.length_nil] at hlen hw0
  omega

/-- A tidy text whose `..` pieces are gone. -/
structure Settled (s : Text) : Prop extends Tidy s where
  ne_dotdot : ['.', '.'] ∉ (pieces '/' s).tail

/-- A step that keeps a text tidy, and the rest of the loop from its start. -/
theorem up_then {s t r : Text} (hk : Keeps s t) (ht : Tidy t)
    (ih : Tidy ([] ++ t) → Passed [] t → Keeps ([] ++ t) r ∧ Settled r) :
    Keeps s r ∧ Settled r := by
  obtain ⟨hk', hr⟩ := ih ht (.inl rfl)
  exact ⟨hk.trans hk', hr⟩

theorem Tidy.up_from_lead {x q : Text} (hx : '/' ∉ x)
    (hs : Tidy (x ++ '/' :: (['.', '.'] ++ '/' :: q))) : Tidy (x ++ '/' :: q) := by
  have hold : pieces '/' (x ++ '/' :: (['.', '.'] ++ '/' :: q)) =
      x :: ['.', '.'] :: pieces '/' q := by
    rw [pieces_append_of_notMem '/' hx, pieces_append_of_notMem '/' (by decide)]
  have hnew : pieces '/' (x ++ '/' :: q) = x :: pieces '/' q := pieces_append_of_notMem '/' hx q
  refine hs.of_pieces ?_ ?_
  · intro p hmem
    have hmem' : p ∈ (pieces '/' q).dropLast := by
      have : p ∈ (pieces '/' (x ++ '/' :: q)).tail.dropLast := hmem
      rwa [hnew] at this
    show p ∈ (pieces '/' (x ++ '/' :: (['.', '.'] ++ '/' :: q))).tail.dropLast
    rw [hold, List.tail_cons, List.dropLast_cons_of_ne_nil (pieces_ne_nil '/' q)]
    exact List.mem_cons_of_mem _ hmem'
  · intro p hmem
    rw [hnew, List.tail_cons] at hmem
    rw [hold, List.tail_cons]
    exact .inr (List.mem_cons_of_mem _ hmem)

/-- A text of a lead and a slash is settled. -/
theorem settled_of_lead {x : Text} (hx : '/' ∉ x) : Settled (x ++ ['/']) := by
  have hp : pieces '/' (x ++ ['/']) = [x, []] := by
    rw [pieces_append_of_notMem '/' hx, pieces_nil]
  refine ⟨⟨?_, ?_⟩, ?_⟩
  · show [] ∉ (pieces '/' (x ++ ['/'])).tail.dropLast
    simp [hp]
  · simp [hp]
  · simp [hp]

/-- What the pieces of a tidy text say about the name before a `..`. -/
theorem Tidy.name_before {u v r : Text} (hs : Tidy (u ++ '/' :: (v ++ '/' :: r))) (hv : '/' ∉ v) :
    v ≠ [] ∧ v ≠ ['.'] := by
  have hp : pieces '/' (v ++ '/' :: r) = v :: pieces '/' r := pieces_append_of_notMem '/' hv r
  constructor
  · rintro rfl
    apply hs.inner_ne_nil
    rw [inner_append, hp, List.dropLast_cons_of_ne_nil (pieces_ne_nil '/' r)]
    exact List.mem_append_right _ (by simp)
  · rintro rfl
    apply hs.ne_dot
    rw [tail_pieces_append, hp]
    exact List.mem_append_right _ (by simp)

theorem Tidy.up {u v q : Text} (hv : '/' ∉ v)
    (hs : Tidy (u ++ '/' :: (v ++ '/' :: (['.', '.'] ++ '/' :: q)))) : Tidy (u ++ '/' :: q) := by
  have hp : pieces '/' (v ++ '/' :: (['.', '.'] ++ '/' :: q)) = v :: ['.', '.'] :: pieces '/' q := by
    rw [pieces_append_of_notMem '/' hv, pieces_append_of_notMem '/' (by decide)]
  refine hs.of_pieces ?_ ?_
  · intro p hmem
    rw [inner_append, List.mem_append] at hmem
    rw [inner_append, hp, List.dropLast_cons_of_ne_nil (by simp),
      List.dropLast_cons_of_ne_nil (pieces_ne_nil '/' q), List.mem_append]
    exact hmem.imp_right fun h => List.mem_cons_of_mem _ (List.mem_cons_of_mem _ h)
  · intro p hmem
    rw [tail_pieces_append, List.mem_append] at hmem
    rw [tail_pieces_append, hp, List.mem_append]
    exact .inr (hmem.imp_right fun h => List.mem_cons_of_mem _ (List.mem_cons_of_mem _ h))

/-- What is left of a tidy text when its end goes. -/
theorem Tidy.before {u r : Text} (hs : Tidy (u ++ '/' :: r)) : Tidy u := by
  refine hs.of_pieces ?_ ?_
  · intro p hmem
    rw [inner_append]
    exact List.mem_append_left _ (List.dropLast_subset _ hmem)
  · intro p hmem
    rw [tail_pieces_append]
    exact .inr (List.mem_append_left _ hmem)

theorem Tidy.before_slash {u r : Text} (hs : Tidy (u ++ '/' :: (r ++ ['/', '.', '.']))) :
    Tidy (u ++ ['/']) := by
  refine hs.of_pieces ?_ ?_
  · intro p hmem
    rw [inner_append, pieces_nil] at hmem
    rw [inner_append]
    simp only [List.dropLast_singleton, List.append_nil] at hmem
    exact List.mem_append_left _ hmem
  · intro p hmem
    rw [tail_pieces_append, pieces_nil, List.mem_append, List.mem_singleton] at hmem
    rw [tail_pieces_append]
    rcases hmem with h | h
    · exact .inr (List.mem_append_left _ h)
    · exact .inl h

/-- What stands between the slash that the inner loop finds and the match is a name. -/
theorem name_before_match {x y u v r : Text}
    (hs : Tidy (x ++ (y ++ (['/', '.', '.'] ++ r))))
    (hp : Passed x (y ++ (['/', '.', '.'] ++ r)))
    (h : strstr ['/', '.', '.'] (y ++ (['/', '.', '.'] ++ r)) = some (y, ['/', '.', '.'] ++ r))
    (hl : lastSlash (x ++ y) = some (u, v)) :
    x ++ (y ++ (['/', '.', '.'] ++ r)) = u ++ '/' :: (v ++ '/' :: (['.', '.'] ++ r)) ∧
      '/' ∉ v ∧ v ≠ [] ∧ v ≠ ['.'] ∧ v ≠ ['.', '.'] := by
  have hA := hp.notMem (.inr ⟨_, rfl⟩) (notPrefix_before_match h)
  obtain ⟨hcut, hv⟩ := lastSlash_some hl
  have htext : x ++ (y ++ (['/', '.', '.'] ++ r)) =
      u ++ '/' :: (v ++ '/' :: (['.', '.'] ++ r)) := by
    rw [← List.append_assoc, hcut]
    simp
  rw [htext] at hs
  obtain ⟨h₁, h₂⟩ := hs.name_before hv
  refine ⟨htext, hv, h₁, h₂, ?_⟩
  rintro rfl
  rw [hcut, tail_pieces_append, pieces_of_notMem '/' hv] at hA
  exact hA (by simp)

/-- **The loop over `/..`** keeps what a tidy text leads to and leaves no `..` behind. -/
theorem cutDotDots_spec (x a : Text) (hs : Tidy (x ++ a)) (hp : Passed x a) :
    Keeps (x ++ a) (cutDotDots x a) ∧ Settled (cutDotDots x a) := by
  fun_induction cutDotDots x a with
  | case1 x a h =>
      refine ⟨Keeps.refl _, hs, ?_⟩
      refine Passed.notMem (r := []) (by simpa using hp) (.inl rfl) ?_
      intro z w hzw
      exact strstr_none h hzw
  | case2 x a y b h hb hxy ih =>
      obtain ⟨rfl, w, rfl⟩ := strstr_some h
      obtain ⟨q, rfl⟩ : ∃ q, w = '/' :: q := by
        cases w with
        | nil => simp at hb
        | cons c q => exact ⟨q, by simpa using hb⟩
      rw [← List.append_assoc, hxy] at hs ⊢
      exact up_then (up_from_lead (x := []) (by decide) q)
        (hs.up_from_lead (x := []) (by decide)) ih
  | case3 x a y b h hb hxy u v hl ih =>
      obtain ⟨rfl, w, rfl⟩ := strstr_some h
      obtain ⟨q, rfl⟩ : ∃ q, w = '/' :: q := by
        cases w with
        | nil => simp at hb
        | cons c q => exact ⟨q, by simpa using hb⟩
      obtain ⟨htext, hv, h₁, h₂, h₃⟩ := name_before_match hs hp h hl
      rw [htext] at hs ⊢
      refine up_then ⟨?_, ?_⟩ (hs.up hv) ih
      · rw [lead_append, lead_append]
      · rw [below_append, below_append, pieces_append_of_notMem '/' hv,
          pieces_append_of_notMem '/' (by decide), resolve_up h₁ h₂ h₃]
  | case4 x a y b h hb hxy hl ih =>
      obtain ⟨rfl, w, rfl⟩ := strstr_some h
      obtain ⟨q, rfl⟩ : ∃ q, w = '/' :: q := by
        cases w with
        | nil => simp at hb
        | cons c q => exact ⟨q, by simpa using hb⟩
      have hx := lastSlash_none hl
      rw [← List.append_assoc] at hs ⊢
      exact up_then (up_from_lead hx q) (hs.up_from_lead hx) ih
  | case5 x a y b h hb hb' hxy =>
      obtain ⟨rfl, w, rfl⟩ := strstr_some h
      obtain rfl : w = [] := by simpa using hb'
      rw [← List.append_assoc, hxy]
      exact ⟨up_from_lead_end (x := []) (by decide), settled_of_lead (x := []) (by decide)⟩
  | case6 x a y b h hb hb' hxy u v hl hu ih =>
      obtain ⟨rfl, w, rfl⟩ := strstr_some h
      obtain rfl : w = [] := by simpa using hb'
      obtain ⟨htext, hv, h₁, h₂, h₃⟩ := name_before_match hs hp h hl
      rw [htext] at hs ⊢
      rw [List.append_nil] at hs ⊢
      refine up_then ⟨?_, ?_⟩ hs.before_slash ih
      · rw [lead_append, lead_append]
      · rw [below_append, below_append, pieces_append_of_notMem '/' hv,
          pieces_of_notMem '/' (s := ['.', '.']) (by decide), resolve_up h₁ h₂ h₃, pieces_nil,
          resolve_cons, resolveStep_empty]
  | case7 x a y b h hb hb' hxy u v hl hu ih =>
      obtain ⟨rfl, w, rfl⟩ := strstr_some h
      obtain rfl : w = [] := by simpa using hb'
      obtain ⟨htext, hv, h₁, h₂, h₃⟩ := name_before_match hs hp h hl
      rw [htext] at hs ⊢
      rw [List.append_nil] at hs ⊢
      refine up_then ⟨?_, ?_⟩ hs.before ih
      · rw [lead_append]
      · rw [below_append, pieces_append_of_notMem '/' hv,
          pieces_of_notMem '/' (s := ['.', '.']) (by decide), resolve_up h₁ h₂ h₃, resolve_nil]
  | case8 x a y b h hb hb' hxy hl ih =>
      obtain ⟨rfl, w, rfl⟩ := strstr_some h
      obtain rfl : w = [] := by simpa using hb'
      have hx := lastSlash_none hl
      rw [← List.append_assoc] at hs ⊢
      exact up_then (up_from_lead_end hx) (settled_of_lead hx).toTidy ih
  | case9 x a y b h hb hb' ih =>
      obtain ⟨rfl, w, rfl⟩ := strstr_some h
      obtain ⟨c, q, rfl⟩ : ∃ c q, w = c :: q := by
        cases w with
        | nil => simp at hb'
        | cons c q => exact ⟨c, q, rfl⟩
      have hc : c ≠ '/' := by simpa using hb
      have hA := hp.notMem (.inr ⟨_, rfl⟩) (notPrefix_before_match h)
      have htext : x ++ (y ++ (['/', '.', '.'] ++ c :: q)) =
          (x ++ y ++ ['/']) ++ (['.', '.'] ++ c :: q) := by simp
      rw [htext] at hs ⊢
      refine ih hs (.inr ⟨x ++ y, rfl, hA, ?_⟩)
      -- the piece at the pointer starts with `..` and goes on with `c`
      intro hlead
      have heq := eq_lead_append_render '/' (['.', '.'] ++ c :: q)
      have hlead' : lead '/' (['.', '.'] ++ c :: q) = ['.', '.'] := hlead
      rw [hlead', List.append_cancel_left_eq] at heq
      cases hr : (pieces '/' (['.', '.'] ++ c :: q)).tail with
      | nil =>
          rw [hr] at heq
          simp at heq
      | cons d ds =>
          rw [hr, render_cons] at heq
          exact hc (List.cons.inj heq).1

/-! ### The simplifier as a whole -/

/-- The text the loop over `/..` starts from. -/
def beforeDotDots (s : Text) : Text :=
  cutLastDot [] (cutFirstDot (dropLeadingDots (dropDots (squeezeSlashes (slashes s)))))

/-- Removing a final dot, or nothing, keeps everything but the last piece. -/
theorem beforeDotDots_spec (s : Text) :
    Tidy (beforeDotDots s) ∧ below '/' '.' (beforeDotDots s) = below '/' '.' (slashes s) ∧
      (lead '/' (beforeDotDots s) = lead '/' (slashes s) ∨ lead '/' (beforeDotDots s) = []) := by
  have hk₂ := (squeezeSlashes_keeps (slashes s)).trans (dropDots_keeps _)
  have hin₂ := dropDots_inner _ (squeezeSlashes_inner (slashes s))
  generalize hd : dropDots (squeezeSlashes (slashes s)) = d at hk₂ hin₂
  have hbelow₃ := (dropLeadingDots_below d).trans hk₂.below_eq
  have hlead₃ := dropLeadingDots_lead d
  rw [hk₂.lead_eq] at hlead₃
  rw [← dropLeadingDots_inner] at hin₂
  generalize he : dropLeadingDots d = e at hbelow₃ hlead₃ hin₂
  have hcut : ∀ t r, (r = t ∨ ∃ z, t = z ++ ['/', '.'] ∧ r = z ++ ['/']) →
      Keeps t r ∧ inner '/' r = inner '/' t := by
    rintro t r (rfl | ⟨z, rfl, rfl⟩)
    · exact ⟨Keeps.refl r, rfl⟩
    · exact ⟨keeps_cut_dot z, (inner_cut_dot z).symm⟩
  obtain ⟨hk₄, hin₄⟩ := hcut e (cutFirstDot e) (cutFirstDot_cases e)
  generalize hf : cutFirstDot e = f at hk₄ hin₄
  have hlast : (cutLastDot [] f = f ∨ ∃ z, f = z ++ ['/', '.'] ∧ cutLastDot [] f = z ++ ['/']) ∧
      ∀ z, cutLastDot [] f ≠ z ++ ['/', '.'] := by
    rcases cutLastDot_cases [] f with ⟨z, hz, hr⟩ | ⟨hno, hr⟩
    · rw [List.nil_append] at hr
      refine ⟨.inr ⟨z, hz, hr⟩, ?_⟩
      intro z' hz'
      have hlen := congrArg List.getLast? (hr.symm.trans hz')
      simp at hlen
    · rw [List.nil_append] at hr
      refine ⟨.inl hr, fun z => ?_⟩
      rw [hr]
      exact hno z
  obtain ⟨hk₅, hin₅⟩ := hcut f (cutLastDot [] f) hlast.1
  have hk := hk₄.trans hk₅
  have hshape : beforeDotDots s = cutLastDot [] f := by
    rw [← hf, ← he, ← hd]
    rfl
  rw [hshape]
  refine ⟨⟨?_, ?_⟩, hk.below_eq.trans hbelow₃, ?_⟩
  · rw [hin₅, hin₄]
    exact fun h => (hin₂ _ h).1 rfl
  · intro hmem
    rcases mem_inner_or_last '/' hmem with h | ⟨z, hz⟩
    · rw [hin₅, hin₄] at h
      exact (hin₂ _ h).2 rfl
    · exact hlast.2 z hz
  · rw [hk.lead_eq]
    exact hlead₃

/-- A settled text is its lead and its names, perhaps with a slash at the end. -/
theorem Settled.text {s : Text} (hs : Settled s) :
    s = lead '/' s ++ render '/' (below '/' '.' s) ∨
      s = lead '/' s ++ render '/' (below '/' '.' s) ++ ['/'] := by
  have htext := eq_lead_append_render '/' s
  rcases List.eq_nil_or_concat' (pieces '/' s).tail with h | ⟨cs, last, h⟩
  · left
    have hb : below '/' '.' s = [] := by
      show resolve '.' [] (pieces '/' s).tail = []
      rw [h]
      rfl
    rw [h] at htext
    rw [hb]
    exact htext
  · have hinner : inner '/' s = cs := by
      show (pieces '/' s).tail.dropLast = cs
      rw [h, List.dropLast_concat]
    have hnames : ∀ c ∈ cs, IsName '/' '.' c := by
      intro c hc
      have hmem : c ∈ (pieces '/' s).tail := by
        rw [h]
        exact List.mem_append_left _ hc
      refine ⟨?_, ?_, ?_, notMem_of_mem_pieces '/' (List.mem_of_mem_tail hmem)⟩
      · rintro rfl
        exact hs.inner_ne_nil (hinner ▸ hc)
      · rintro rfl
        exact hs.ne_dot hmem
      · rintro rfl
        exact hs.ne_dotdot hmem
    have hmemLast : last ∈ (pieces '/' s).tail := by
      rw [h]
      simp
    have hbelow : below '/' '.' s = resolveStep '.' cs last := by
      show resolve '.' [] (pieces '/' s).tail = _
      rw [h, resolve_append, resolve_names hnames]
      rfl
    by_cases hl : last = []
    · right
      rw [hbelow, hl, resolveStep_empty, List.append_assoc]
      rw [h, hl, render_append] at htext
      exact htext
    · left
      have hdot : last ≠ ['.'] := by
        rintro rfl
        exact hs.ne_dot hmemLast
      have hdotdot : last ≠ ['.', '.'] := by
        rintro rfl
        exact hs.ne_dotdot hmemLast
      rw [hbelow, resolveStep_of_ne '.' cs hl hdot hdotdot]
      rw [h] at htext
      exact htext

theorem cutEndingSlash_of_last_ne {s : Text} (h : s.getLast? ≠ some '/') :
    cutEndingSlash s = s := by
  simp [cutEndingSlash, h]

/-- The last character of a text that ends with a name is not a slash. -/
theorem getLast?_render_ne {l : Text} (hl : '/' ∉ l) {ns : List Text}
    (hns : ∀ c ∈ ns, IsName '/' '.' c) : (l ++ render '/' ns).getLast? ≠ some '/' := by
  rcases List.eq_nil_or_concat' ns with rfl | ⟨cs, c, rfl⟩
  · rw [render_nil, List.append_nil]
    intro h
    exact hl (List.mem_of_getLast? h)
  · have hc := hns c (by simp)
    intro h
    rw [render_append, render_cons, render_nil, List.append_nil, ← List.append_assoc] at h
    have htail : (l ++ render '/' cs ++ '/' :: c).getLast? = c.getLast? := by
      rw [List.getLast?_append]
      cases c with
      | nil => exact absurd rfl hc.ne_nil
      | cons d ds =>
          rw [List.getLast?_cons_cons]
          cases hd : (d :: ds).getLast? with
          | none => simp at hd
          | some e => rfl
    rw [htail] at h
    exact hc.notMem (List.mem_of_getLast? h)

theorem cutEndingSlash_slash {l : Text} (hl : '/' ∉ l) {ns : List Text}
    (hns : ∀ c ∈ ns, IsName '/' '.' c) :
    cutEndingSlash (l ++ render '/' ns ++ ['/']) = l ++ render '/' ns ∨
      (ns = [] ∧ cutEndingSlash (l ++ render '/' ns ++ ['/']) = l ++ ['/']) := by
  have hlen : ns ≠ [] → 2 ≤ (render '/' ns).length := by
    intro hne
    cases ns with
    | nil => exact absurd rfl hne
    | cons c cs =>
        have hc := List.length_pos_of_ne_nil (hns c (by simp)).ne_nil
        simp only [render_cons, List.length_append, List.length_cons]
        omega
  have hlast : (l ++ render '/' ns ++ ['/']).getLast? = some '/' := List.getLast?_concat
  by_cases hns0 : ns = []
  · subst hns0
    rw [render_nil, List.append_nil] at hlast ⊢
    unfold cutEndingSlash
    split_ifs
    · exact .inl List.dropLast_concat
    · exact .inr ⟨rfl, rfl⟩
    · exact .inl List.dropLast_concat
    · exact .inr ⟨rfl, rfl⟩
    · exact .inl List.dropLast_concat
  · have h2 := hlen hns0
    left
    unfold cutEndingSlash
    split_ifs with h₁ h₃ h₄ h₅
    · exact List.dropLast_concat
    · -- a drive letter stands in the lead
      exfalso
      apply h₃
      refine ⟨?_, hlast⟩
      have hlpos : 0 < l.length := by
        apply List.length_pos_of_ne_nil
        rintro rfl
        cases ns with
        | nil => exact hns0 rfl
        | cons c cs =>
            have hdrive := h₁.1
            cases c with
            | nil => exact (hns [] (by simp)).ne_nil rfl
            | cons d ds => simp [isDrive] at hdrive
      simp only [List.length_append, List.length_cons, List.length_nil]
      omega
    · exact List.dropLast_concat
    · exfalso
      apply h₅
      refine ⟨?_, hlast⟩
      simp only [List.length_append, List.length_cons, List.length_nil]
      omega
    · exact List.dropLast_concat

/-- The text before the last test, which writes `/` for an empty text, `.` and `..`. -/
theorem beforeLast_form (s : Text) :
    ∃ l ns, (l = lead '/' (slashes s) ∨ l = []) ∧ ns = below '/' '.' (slashes s) ∧
      (cutEndingSlash (cutDotDots [] (beforeDotDots s)) = l ++ render '/' ns ∨
        (ns = [] ∧ cutEndingSlash (cutDotDots [] (beforeDotDots s)) = l ++ ['/'])) := by
  obtain ⟨htidy, hbelow, hlead⟩ := beforeDotDots_spec s
  obtain ⟨hkeep, hset⟩ := cutDotDots_spec [] (beforeDotDots s) htidy (.inl rfl)
  rw [List.nil_append] at hkeep
  have hl : '/' ∉ lead '/' (cutDotDots [] (beforeDotDots s)) := notMem_lead '/' _
  have hns := isName_of_mem_below '/' '.' (cutDotDots [] (beforeDotDots s))
  refine ⟨lead '/' (cutDotDots [] (beforeDotDots s)), _, ?_, hkeep.below_eq.trans hbelow, ?_⟩
  · rw [hkeep.lead_eq]
    exact hlead
  · rcases hset.text with h | h
    · left
      conv_lhs => rw [h]
      exact cutEndingSlash_of_last_ne (getLast?_render_ne hl hns)
    · have hend := cutEndingSlash_slash hl hns
      rw [← h] at hend
      exact hend

/-- The last test of the simplifier, over the text that the passes leave. -/
theorem simplifyPath_eq {s t : Text} (hne : s ≠ [])
    (ht : cutEndingSlash (cutDotDots [] (beforeDotDots s)) = t) :
    simplifyPath s = if t = [] ∨ t = ['.', '.'] ∨ t = ['.'] then ['/'] else t := by
  rw [simplifyPath, if_neg hne, ← ht]
  rfl

/-- **Absolute texts.**  A text that starts with a slash or a backslash is simplified to the
absolute path with the names it leads to. -/
theorem simplifyPath_absolute {s : Text} (hne : s ≠ []) (hlead : lead '/' (slashes s) = []) :
    simplifyPath s = absolute '/' (below '/' '.' (slashes s)) := by
  obtain ⟨l, ns, hl, hns, hform⟩ := beforeLast_form s
  have hl0 : l = [] := by
    rcases hl with h | h
    · exact h.trans hlead
    · exact h
  subst hl0
  rw [← hns]
  rcases hform with h | ⟨h0, h⟩
  · rw [simplifyPath_eq hne h, List.nil_append]
    cases ns with
    | nil => rfl
    | cons c cs => simp [absolute]
  · rw [simplifyPath_eq hne h, h0]
    rfl

/-- **Any text.**  The result is a lead without slashes, followed by names or by one slash. -/
theorem simplifyPath_form {s : Text} (hne : s ≠ []) :
    ∃ l ns, '/' ∉ l ∧ '\\' ∉ l ∧ (∀ c ∈ ns, IsName '/' '.' c ∧ '\\' ∉ c) ∧
      (simplifyPath s = l ++ render '/' ns ∨ simplifyPath s = l ++ ['/']) := by
  obtain ⟨l, ns, hl, hns, hform⟩ := beforeLast_form s
  have hback : '\\' ∉ slashes s := by
    intro h
    obtain ⟨c, -, hc⟩ := List.mem_map.mp h
    split_ifs at hc with hb
    · exact absurd hc (by decide)
    · exact hb hc
  have hpieces : ∀ p ∈ pieces '/' (slashes s), '\\' ∉ p := fun p hp h =>
    hback (subset_of_mem_pieces '/' hp h)
  have hleadmem : lead '/' (slashes s) ∈ pieces '/' (slashes s) := by
    rw [pieces_eq_lead_cons]
    exact List.mem_cons_self
  have hlsep : '/' ∉ l := by
    rcases hl with rfl | rfl
    · exact notMem_lead '/' _
    · simp
  have hlback : '\\' ∉ l := by
    rcases hl with rfl | rfl
    · exact hpieces _ hleadmem
    · simp
  have hnames : ∀ c ∈ ns, IsName '/' '.' c ∧ '\\' ∉ c := by
    subst hns
    intro c hc
    exact ⟨isName_of_mem_below '/' '.' _ c hc, hpieces c (mem_pieces_of_mem_below '/' '.' hc)⟩
  have hsimp := simplifyPath_eq hne rfl
  split_ifs at hsimp
  · exact ⟨[], [], by simp, by simp, by simp, .inr hsimp⟩
  · refine ⟨l, ns, hlsep, hlback, hnames, ?_⟩
    rcases hform with h | ⟨-, h⟩
    · exact .inl (hsimp.trans h)
    · exact .inr (hsimp.trans h)

end ClusterFtpd
