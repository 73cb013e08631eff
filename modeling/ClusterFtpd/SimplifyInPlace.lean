import ClusterFtpd.BuildPath
import ClusterFtpd.Lib.CString

/-!
# `SimplifyPath` in its buffer

The passes of `CFtpServer::SimplifyPath` again, now as accesses to the cells of a buffer: a pointer
is a position, and an access outside the buffer is an error.  The buffer is the string with its
terminator and nothing more, so a run that ends has touched nothing else.

Every pass is compared with the pass on texts of the same name.  A loop is run with a bound on its
rounds.

Main result: `simplifyPath_in_place`: from a string that starts with a slash or a backslash the
function ends, within the string and its terminator, with the canonical path in the buffer.
-/

namespace ClusterFtpd

open CString PathComponents

/-- The terminator. -/
def NUL : Char := '\x00'

/-- The cells a string is in. -/
abbrev Cells := List Char

/-! ### The passes -/

/-- `strstr(b + p, pat)`, as a pointer into `b`. -/
def strstrAt (b : Cells) (p : ℕ) (pat : Text) : Option (Option ℕ) :=
  (stringAt NUL b p).map fun s => (strstr pat s).map fun m => p + m.1.length

/-- `!strncmp(b, pat, strlen(pat))`. -/
def startsWith (b : Cells) (pat : Text) : Option Bool :=
  (stringAt NUL b 0).map fun s => pat.isPrefixOf s

/-- `for (a = pszPath; *a; ++a) if (*a == '\\') *a = '/'`. -/
def slashesIn : ℕ → Cells → ℕ → Option Cells
  | 0, _, _ => none
  | n + 1, b, a => do
      let c ← read b a
      if c = NUL then return b
      else if c = '\\' then
        let b ← write b a '/'
        slashesIn n b (a + 1)
      else slashesIn n b (a + 1)

/-- `while ((a = strstr(pszPath, "//"))) memmove(a, a + 1, strlen(a))`. -/
def squeezeSlashesIn : ℕ → Cells → Option Cells
  | 0, _ => none
  | n + 1, b => do
      match ← strstrAt b 0 ['/', '/'] with
      | none => return b
      | some a =>
          let len ← strlen NUL b a
          let b ← move b a (a + 1) len
          squeezeSlashesIn n b

/-- `while ((a = strstr(pszPath, "/./"))) memmove(a, a + 2, strlen(a + 1))`. -/
def dropDotsIn : ℕ → Cells → Option Cells
  | 0, _ => none
  | n + 1, b => do
      match ← strstrAt b 0 ['/', '.', '/'] with
      | none => return b
      | some a =>
          let len ← strlen NUL b (a + 1)
          let b ← move b a (a + 2) len
          dropDotsIn n b

/-- The first `strncmp` test. -/
def dropLeadingDotIn (b : Cells) : Option Cells := do
  if ← startsWith b ['.', '/'] then
    let len ← strlen NUL b 0
    move b 0 1 len
  else return b

/-- The second one. -/
def dropLeadingDotDotIn (b : Cells) : Option Cells := do
  if ← startsWith b ['.', '.', '/'] then
    let len ← strlen NUL b 1
    move b 0 2 len
  else return b

/-- `if ((a = strstr(pszPath, "/.")) && a[2] == '\0') a[1] = '\0'`. -/
def cutFirstDotIn (b : Cells) : Option Cells := do
  match ← strstrAt b 0 ['/', '.'] with
  | none => return b
  | some a =>
      let c ← read b (a + 2)
      if c = NUL then write b (a + 1) NUL else return b

/-- The loop that removes an ending `.`. -/
def cutLastDotIn : ℕ → Cells → ℕ → Option Cells
  | 0, _, _ => none
  | n + 1, b, a => do
      match ← strstrAt b a ['/', '.'] with
      | none => return b
      | some a =>
          let c ← read b (a + 2)
          if c = NUL then
            let b ← write b (a + 1) NUL
            cutLastDotIn n b a
          else cutLastDotIn n b (a + 1)

/-- `isalpha(pszPath[0]) && pszPath[1] == ':'`. -/
def isDriveIn (b : Cells) : Option Bool := do
  let c ← read b 0
  if c.isAlpha then
    let d ← read b 1
    return d == ':'
  else return false

/-- `b == pszPath || (b == (pszPath + 2) && isalpha(pszPath[0]) && pszPath[1] == ':')`. -/
def atRootIn (b : Cells) (p : ℕ) : Option Bool :=
  if p = 0 then some true else if p = 2 then isDriveIn b else some false

/-- The body of the inner loop that has found a slash at `p`, for the match at `a`. -/
def removeUpIn (b : Cells) (a p : ℕ) : Option Cells := do
  if ← atRootIn b p then
    let c ← read b (a + 3)
    if c = '/' then
      let len ← strlen NUL b (a + 3)
      move b p (a + 3) (len + 1)
    else write b (p + 1) NUL
  else
    let len ← strlen NUL b (a + 2)
    move b p (a + 3) len

/-- The body of the inner loop that has come to `pszPath` without a slash. -/
def removeFirstIn (b : Cells) (a : ℕ) : Option Cells := do
  let c ← read b (a + 3)
  if c = '/' then
    let len ← strlen NUL b (a + 3)
    move b a (a + 3) (len + 1)
  else write b (a + 1) NUL

/-- The inner loop, for the match at `a`; `p` is its pointer `b`. -/
def walkBackIn (b : Cells) (a : ℕ) : ℕ → Option Cells
  | 0 => some b
  | p + 1 => do
      let c ← read b p
      if c = '/' then removeUpIn b a p
      else if p = 0 then removeFirstIn b a
      else walkBackIn b a p

/-- The loop over `/..`, from the pointer `a`, `none` when it is null. -/
def cutDotDotsIn : ℕ → Cells → Option ℕ → Option Cells
  | 0, _, _ => none
  | _ + 1, b, none => some b
  | n + 1, b, some a => do
      match ← strstrAt b a ['/', '.', '.'] with
      | none => return b
      | some a =>
          let c ← read b (a + 3)
          if c = '/' ∨ c = NUL then
            if a = 0 then
              if c = '/' then
                let len ← strlen NUL b 2
                let b ← move b 0 3 len
                cutDotDotsIn n b (some 0)
              else write b 1 NUL
            else
              let b ← walkBackIn b a a
              let next ← strstrAt b 0 ['/', '.', '.']
              cutDotDotsIn n b next
          else cutDotDotsIn n b (some (a + 1))

/-- `pszPath[len - 1] == '/'`. -/
def endsInSlash (b : Cells) : ℕ → Option Bool
  | 0 => none
  | len + 1 => (read b len).map fun c => c == '/'

/-- The removal of an ending slash, when the length is above `least`. -/
def cutSlashIn (b : Cells) (len least : ℕ) : Option Cells := do
  if len > least then
    if ← endsInSlash b len then write b (len - 1) NUL else return b
  else return b

/-- `isalpha(pszPath[0]) && pszPath[1] == ':' && pszPath[2] == '/'`. -/
def isDriveRootIn (b : Cells) : Option Bool := do
  if ← isDriveIn b then
    let c ← read b 2
    return c == '/'
  else return false

/-- The removal of an ending slash. -/
def cutEndingSlashIn (b : Cells) : Option Cells := do
  let len ← strlen NUL b 0
  if ← isDriveRootIn b then cutSlashIn b len 3
  else
    let c ← read b 0
    if c = '/' then cutSlashIn b len 1
    else if ← endsInSlash b len then write b (len - 1) NUL else return b

/-- The last test. -/
def lastTestIn (b : Cells) : Option Cells := do
  let s ← stringAt NUL b 0
  if s = [] ∨ s = ['.', '.'] ∨ s = ['.'] then
    let b ← write b 0 '/'
    write b 1 NUL
  else return b

/-- `CFtpServer::SimplifyPath` of the string that begins the buffer. -/
def simplifyPathIn (n : ℕ) (b : Cells) : Option Cells := do
  let c ← read b 0
  if c = NUL then return b
  else
    let b ← slashesIn n b 0
    let b ← squeezeSlashesIn n b
    let b ← dropDotsIn n b
    let b ← dropLeadingDotIn b
    let b ← dropLeadingDotDotIn b
    let b ← cutFirstDotIn b
    let b ← cutLastDotIn n b 0
    let b ← cutDotDotsIn n b (some 0)
    let b ← cutEndingSlashIn b
    lastTestIn b

/-! ### Every pass on texts and its run in the buffer -/

variable {k : ℕ} {b : Cells} {s x y : Text}

theorem strstrAt_of (h : Holds NUL k b (x ++ y)) (pat : Text) :
    strstrAt b x.length pat = some ((strstr pat y).map fun m => x.length + m.1.length) := by
  unfold strstrAt
  rw [h.stringAt]
  rfl

theorem strstrAt_start (h : Holds NUL k b s) (pat : Text) :
    strstrAt b 0 pat = some ((strstr pat s).map fun m => m.1.length) := by
  have hat := strstrAt_of (x := []) h pat
  rw [List.length_nil] at hat
  rw [hat]
  simp only [Nat.zero_add]

theorem startsWith_of (h : Holds NUL k b s) (pat : Text) :
    startsWith b pat = some (pat.isPrefixOf s) := by
  have hat := h.stringAt (x := [])
  rw [List.length_nil] at hat
  unfold startsWith
  rw [hat]
  rfl

/-- The cell behind a piece of the string. -/
theorem read_behind {m : Text} (h : Holds NUL k b (x ++ (m ++ y))) :
    read b (x.length + m.length) = some (y.head?.getD NUL) := by
  rw [← List.append_assoc] at h
  rw [← List.length_append]
  exact h.read

/-- A terminator is read at the end of the string only. -/
theorem Holds.head_eq_nul_iff (h : Holds NUL k b (x ++ y)) : y.head?.getD NUL = NUL ↔ y = [] := by
  cases y with
  | nil => exact iff_of_true rfl rfl
  | cons c y =>
      refine iff_of_false ?_ (by simp)
      intro hc
      have hc' : c = NUL := hc
      exact h.notMem (by simp [hc'])

theorem slashesIn_spec (h : Holds NUL k b (x ++ y)) :
    Arrives (fun n => slashesIn n b x.length) fun b' => Holds NUL k b' (x ++ slashes y) := by
  induction y generalizing b x with
  | nil =>
      have hread := h.read
      refine Arrives.last (v := b) h ?_
      intro n
      rw [slashesIn, hread]
      rfl
  | cons c y ih =>
      have hread := h.read
      have hc : c ≠ NUL := by
        intro heq
        exact h.notMem (by simp [heq])
      have hnext : ∀ {b' : Cells} {d : Char}, Holds NUL k b' (x ++ d :: y) →
          Arrives (fun n => slashesIn n b' (x.length + 1)) fun b' =>
            Holds NUL k b' (x ++ d :: slashes y) := by
        intro b' d hb'
        have hsplit : x ++ d :: y = x ++ [d] ++ y := List.append_cons ..
        rw [hsplit] at hb'
        have hih := ih hb'
        rw [List.length_append, List.length_singleton] at hih
        refine hih.mono ?_
        intro b₁ hb₁
        rw [List.append_cons x d]
        exact hb₁
      by_cases hback : c = '\\'
      · obtain ⟨b', hwrite, hb'⟩ := h.put (d := '/') (by decide)
        have hslashes : slashes (c :: y) = '/' :: slashes y := by
          show (if c = '\\' then '/' else c) :: slashes y = _
          rw [if_pos hback]
        rw [hslashes]
        refine (hnext hb').round ?_
        intro n
        rw [slashesIn, hread]
        show (if c = NUL then _ else if c = '\\' then (write b x.length '/' >>= _) else _) = _
        rw [if_neg hc, if_pos hback, hwrite]
        rfl
      · have hslashes : slashes (c :: y) = c :: slashes y := by
          show (if c = '\\' then '/' else c) :: slashes y = _
          rw [if_neg hback]
        rw [hslashes]
        refine (hnext h).round ?_
        intro n
        rw [slashesIn, hread]
        show (if c = NUL then _ else if c = '\\' then _ else _) = _
        rw [if_neg hc, if_neg hback]

theorem squeezeSlashesIn_spec (h : Holds NUL k b s) :
    Arrives (fun n => squeezeSlashesIn n b) fun b' => Holds NUL k b' (squeezeSlashes s) := by
  fun_induction squeezeSlashes s generalizing b with
  | case1 s hs =>
      refine Arrives.last h ?_
      intro n
      rw [squeezeSlashesIn, strstrAt_start h, hs]
      rfl
  | case2 s x a hs ih =>
      have hat := strstrAt_start h ['/', '/']
      rw [hs] at hat
      obtain ⟨rfl, w, rfl⟩ := strstr_some hs
      have hlen := h.strlen
      obtain ⟨b', hmove, hb'⟩ := Holds.close (g := ['/']) (y := '/' :: w) h rfl
        (n := (['/', '/'] ++ w).length) rfl
      refine (ih hb').round ?_
      intro n
      rw [squeezeSlashesIn, hat]
      show (strlen NUL b x.length >>= _) = _
      rw [hlen]
      show (move b x.length (x.length + ['/'].length) _ >>= _) = _
      rw [hmove]
      rfl

theorem dropDotsIn_spec (h : Holds NUL k b s) :
    Arrives (fun n => dropDotsIn n b) fun b' => Holds NUL k b' (dropDots s) := by
  fun_induction dropDots s generalizing b with
  | case1 s hs =>
      refine Arrives.last h ?_
      intro n
      rw [dropDotsIn, strstrAt_start h, hs]
      rfl
  | case2 s x a hs ih =>
      have hat := strstrAt_start h ['/', '.', '/']
      rw [hs] at hat
      obtain ⟨rfl, w, rfl⟩ := strstr_some hs
      have hsplit : x ++ (['/', '.', '/'] ++ w) = x ++ ['/'] ++ ('.' :: '/' :: w) := by simp
      have hlen := (hsplit ▸ h).strlen
      rw [List.length_append, List.length_singleton] at hlen
      obtain ⟨b', hmove, hb'⟩ := Holds.close (g := ['/', '.']) (y := '/' :: w) h rfl
        (n := ('.' :: '/' :: w).length) rfl
      refine (ih hb').round ?_
      intro n
      rw [dropDotsIn, hat]
      show (strlen NUL b (x.length + 1) >>= _) = _
      rw [hlen]
      show (move b x.length (x.length + ['/', '.'].length) _ >>= _) = _
      rw [hmove]
      rfl

theorem dropLeadingDotIn_spec (h : Holds NUL k b s) :
    ∃ b', dropLeadingDotIn b = some b' ∧
      Holds NUL k b' (if ['.', '/'].isPrefixOf s then s.drop 1 else s) := by
  unfold dropLeadingDotIn
  rw [startsWith_of h]
  by_cases hp : ['.', '/'].isPrefixOf s = true
  · rw [if_pos hp, hp]
    obtain ⟨w, rfl⟩ := List.isPrefixOf_iff_prefix.mp hp
    have hlen := h.strlen (x := [])
    obtain ⟨b', hmove, hb'⟩ := Holds.close (x := []) (g := ['.']) (y := '/' :: w) h rfl
      (n := (['.', '/'] ++ w).length) rfl
    refine ⟨b', ?_, hb'⟩
    show (strlen NUL b ([] : Text).length >>= fun len => move b 0 1 len) = _
    rw [hlen]
    exact hmove
  · rw [if_neg hp]
    rw [Bool.not_eq_true] at hp
    rw [hp]
    exact ⟨b, rfl, h⟩

theorem dropLeadingDotDotIn_spec (h : Holds NUL k b s) :
    ∃ b', dropLeadingDotDotIn b = some b' ∧
      Holds NUL k b' (if ['.', '.', '/'].isPrefixOf s then s.drop 2 else s) := by
  unfold dropLeadingDotDotIn
  rw [startsWith_of h]
  by_cases hp : ['.', '.', '/'].isPrefixOf s = true
  · rw [if_pos hp, hp]
    obtain ⟨w, rfl⟩ := List.isPrefixOf_iff_prefix.mp hp
    have hlen := Holds.strlen (x := ['.']) (y := '.' :: '/' :: w) h
    obtain ⟨b', hmove, hb'⟩ := Holds.close (x := []) (g := ['.', '.']) (y := '/' :: w) h rfl
      (n := ('.' :: '/' :: w).length) rfl
    refine ⟨b', ?_, hb'⟩
    show (strlen NUL b ['.'].length >>= fun len => move b 0 2 len) = _
    rw [hlen]
    exact hmove
  · rw [if_neg hp]
    rw [Bool.not_eq_true] at hp
    rw [hp]
    exact ⟨b, rfl, h⟩

/-- A match of `/.` is at the end of the string, where its dot can be cut, or it is not. -/
theorem match_dot {w : Text} (h : Holds NUL k b (x ++ (['/', '.'] ++ w))) :
    (w = [] ∧ read b (x.length + 2) = some NUL ∧
      ∃ b', write b (x.length + 1) NUL = some b' ∧ Holds NUL k b' (x ++ ['/'])) ∨
    (w ≠ [] ∧ ∃ c, c ≠ NUL ∧ read b (x.length + 2) = some c) := by
  have hread := read_behind h
  have hnul := Holds.head_eq_nul_iff (x := x ++ ['/', '.']) (y := w) (by
    rw [List.append_assoc]
    exact h)
  by_cases hw : w = []
  · have hcut := Holds.cut (x := x ++ ['/']) (y := '.' :: w) (by
      rw [List.append_assoc]
      exact h)
    rw [List.length_append, List.length_singleton] at hcut
    rw [hnul.mpr hw] at hread
    exact .inl ⟨hw, hread, hcut⟩
  · exact .inr ⟨hw, _, fun hn => hw (hnul.mp hn), hread⟩

theorem cutFirstDotIn_spec (h : Holds NUL k b s) :
    ∃ b', cutFirstDotIn b = some b' ∧ Holds NUL k b' (cutFirstDot s) := by
  unfold cutFirstDotIn cutFirstDot
  rw [strstrAt_start h]
  cases hs : strstr ['/', '.'] s with
  | none => exact ⟨b, rfl, h⟩
  | some m =>
      obtain ⟨x, a⟩ := m
      obtain ⟨rfl, w, rfl⟩ := strstr_some hs
      show ∃ b', (read b (x.length + 2) >>= fun c =>
        if c = NUL then write b (x.length + 1) NUL else some b) = some b' ∧
          Holds NUL k b' (if (['/', '.'] ++ w).length = 2 then x ++ ['/'] else x ++ (['/', '.'] ++ w))
      obtain ⟨rfl, hread, b', hwrite, hb'⟩ | ⟨hw, c, hc, hread⟩ := match_dot h
      · refine ⟨b', ?_, hb'⟩
        rw [hread]
        show (if NUL = NUL then write b (x.length + 1) NUL else some b) = some b'
        rw [if_pos rfl, hwrite]
      · have htwo : ¬ (['/', '.'] ++ w).length = 2 := by
          have hpos := List.length_pos_of_ne_nil hw
          rw [List.length_append, List.length_cons, List.length_singleton]
          omega
        rw [if_neg htwo, hread]
        exact ⟨b, if_neg hc, h⟩

theorem cutLastDotIn_spec {a : Text} (h : Holds NUL k b (x ++ a)) :
    Arrives (fun n => cutLastDotIn n b x.length) fun b' => Holds NUL k b' (cutLastDot x a) := by
  fun_induction cutLastDot x a generalizing b with
  | case1 x a hs =>
      refine Arrives.last h ?_
      intro n
      rw [cutLastDotIn, strstrAt_of h, hs]
      rfl
  | case2 x a y m hs htwo ih =>
      have hat := strstrAt_of h ['/', '.']
      rw [hs] at hat
      obtain ⟨rfl, w, rfl⟩ := strstr_some hs
      rw [← List.append_assoc] at h
      obtain ⟨-, hread, b', hwrite, hb'⟩ | ⟨hw, -⟩ := match_dot h
      · rw [List.length_append] at hread hwrite
        refine (ih hb').round ?_
        intro n
        rw [cutLastDotIn, hat]
        show (read b (x.length + y.length + 2) >>= _) = _
        rw [hread]
        show (write b (x.length + y.length + 1) NUL >>= fun b =>
          cutLastDotIn n b (x.length + y.length)) = _
        rw [hwrite, List.length_append]
        rfl
      · rw [List.length_append, List.length_cons, List.length_singleton] at htwo
        have hpos := List.length_pos_of_ne_nil hw
        omega
  | case3 x a y m hs htwo ih =>
      have hat := strstrAt_of h ['/', '.']
      rw [hs] at hat
      obtain ⟨rfl, w, rfl⟩ := strstr_some hs
      rw [← List.append_assoc] at h
      obtain ⟨rfl, -⟩ | ⟨-, c, hc, hread⟩ := match_dot h
      · exact absurd rfl htwo
      · have hnext : x ++ y ++ (['/', '.'] ++ w) = x ++ y ++ ['/'] ++ ('.' :: w) := by simp
        rw [hnext] at h
        rw [List.length_append] at hread
        refine (ih h).round ?_
        intro n
        rw [cutLastDotIn, hat]
        show (read b (x.length + y.length + 2) >>= _) = _
        rw [hread]
        show (if c = NUL then _ else cutLastDotIn n b (x.length + y.length + 1)) = _
        rw [if_neg hc]
        have hpos : x.length + y.length + 1 = (x ++ y ++ ['/']).length := by simp [Nat.add_assoc]
        rw [hpos]
        rfl

/-! ### The loop over `/..` -/

theorem isDriveIn_spec (h : Holds NUL k b s) : isDriveIn b = some (isDrive s) := by
  have hread := h.read (x := [])
  unfold isDriveIn
  rw [show read b 0 = some (s.head?.getD NUL) from hread]
  show (if (s.head?.getD NUL).isAlpha then (read b 1 >>= fun d => pure (d == ':')) else pure false) = _
  cases s with
  | nil => rfl
  | cons c s =>
      have hread' := Holds.read (x := [c]) (y := s) h
      show (if c.isAlpha then (read b 1 >>= fun d => pure (d == ':')) else pure false) = _
      rw [show read b 1 = some (s.head?.getD NUL) from hread']
      cases s with
      | nil => by_cases hc : c.isAlpha = true <;> simp [hc, isDrive, NUL]
      | cons d s => by_cases hc : c.isAlpha = true <;> simp [hc, isDrive]

/-- The inner loop goes back over the name before the match. -/
theorem walkBackIn_some {u v r : Text} (hv : '/' ∉ v) (h : Holds NUL k b (u ++ '/' :: v ++ r))
    (a : ℕ) : walkBackIn b a (u ++ '/' :: v).length = removeUpIn b a u.length := by
  induction v using List.reverseRecOn generalizing r with
  | nil =>
      have hread := Holds.read (x := u) (y := '/' :: r) (by simpa using h)
      rw [List.length_append, List.length_singleton, walkBackIn, hread]
      rfl
  | append_singleton v c ih =>
      rw [List.mem_append, List.mem_singleton, not_or] at hv
      have hc : ¬ c = '/' := fun heq => hv.2 heq.symm
      have h' : Holds NUL k b (u ++ '/' :: v ++ c :: r) := by simpa using h
      have hread := h'.read
      have hlen : (u ++ '/' :: (v ++ [c])).length = (u ++ '/' :: v).length + 1 := by simp; omega
      have hpos : ¬ (u ++ '/' :: v).length = 0 := by simp
      rw [hlen, walkBackIn, hread]
      show (if c = '/' then _ else if (u ++ '/' :: v).length = 0 then _ else _) = _
      rw [if_neg hc, if_neg hpos]
      exact ih hv.1 h'

/-- Without a slash before the match it comes to the start. -/
theorem walkBackIn_none {x r : Text} (hx : '/' ∉ x) (hne : x ≠ []) (h : Holds NUL k b (x ++ r))
    (a : ℕ) : walkBackIn b a x.length = removeFirstIn b a := by
  induction x using List.reverseRecOn generalizing r with
  | nil => exact absurd rfl hne
  | append_singleton x c ih =>
      rw [List.mem_append, List.mem_singleton, not_or] at hx
      have hc : ¬ c = '/' := fun heq => hx.2 heq.symm
      have h' : Holds NUL k b (x ++ c :: r) := by simpa using h
      have hread := h'.read
      rw [List.length_append, List.length_singleton, walkBackIn, hread]
      show (if c = '/' then _ else if x.length = 0 then _ else _) = _
      rw [if_neg hc]
      by_cases h0 : x.length = 0
      · rw [if_pos h0]
      · rw [if_neg h0]
        exact ih hx.1 (List.ne_nil_of_length_pos (by omega)) h'

theorem atRootIn_spec {u v : Text} (h : Holds NUL k b (u ++ '/' :: v)) :
    atRootIn b u.length =
      some (decide (u = [] ∨ (u.length = 2 ∧ isDrive (u ++ '/' :: v) = true))) := by
  unfold atRootIn
  by_cases h0 : u = []
  · subst h0
    simp
  · have hpos := List.length_pos_of_ne_nil h0
    rw [if_neg (by omega)]
    by_cases h2 : u.length = 2
    · rw [if_pos h2, isDriveIn_spec h]
      simp [h0, h2]
    · rw [if_neg h2]
      simp [h0, h2]

theorem isDrive_append {u : Text} (hu : u.length = 2) (r r' : Text) :
    isDrive (u ++ r) = isDrive (u ++ r') := by
  match u, hu with
  | [c, d], _ => rfl

/-- The body of the inner loop takes the name and the `..` away. -/
theorem removeUpIn_spec {u v w : Text}
    (h : Holds NUL k b (u ++ '/' :: v ++ (['/', '.', '.'] ++ w))) (hw : w = [] ∨ ∃ q, w = '/' :: q) :
    ∃ b', removeUpIn b (u ++ '/' :: v).length u.length = some b' ∧
      Holds NUL k b' (if w = [] ∧ (u = [] ∨ (u.length = 2 ∧ isDrive (u ++ '/' :: v) = true))
        then u ++ ['/'] else u ++ w) := by
  have hroot : atRootIn b u.length =
      some (decide (u = [] ∨ (u.length = 2 ∧ isDrive (u ++ '/' :: v) = true))) := by
    have h' : Holds NUL k b (u ++ '/' :: (v ++ (['/', '.', '.'] ++ w))) := by simpa using h
    rw [atRootIn_spec h']
    by_cases h2 : u.length = 2
    · rw [isDrive_append h2 ('/' :: (v ++ (['/', '.', '.'] ++ w))) ('/' :: v)]
    · simp [h2]
  have hread := read_behind h
  have hlen := Holds.strlen (x := u ++ '/' :: v ++ ['/', '.', '.']) (y := w) (by simpa using h)
  have hlen' := Holds.strlen (x := u ++ '/' :: v ++ ['/', '.']) (y := '.' :: w) (by simpa using h)
  rw [List.length_append] at hlen hlen'
  have hgap : u ++ '/' :: v ++ (['/', '.', '.'] ++ w) =
      u ++ ('/' :: v ++ ['/', '.', '.'] ++ w) := by simp
  have hclose := Holds.close (hgap ▸ h) (a := (u ++ '/' :: v).length + 3) (n := w.length + 1)
    (by simp; omega) rfl
  have hcut := Holds.cut (x := u ++ ['/']) (y := v ++ (['/', '.', '.'] ++ w)) (by simpa using h)
  rw [List.length_append, List.length_singleton] at hcut
  unfold removeUpIn
  rw [hroot]
  by_cases hr : u = [] ∨ (u.length = 2 ∧ isDrive (u ++ '/' :: v) = true)
  · rw [decide_eq_true hr]
    show ∃ b', (read b ((u ++ '/' :: v).length + 3) >>= _) = _ ∧ _
    rw [show read b ((u ++ '/' :: v).length + 3) = _ from hread]
    obtain rfl | ⟨q, rfl⟩ := hw
    · rw [if_pos ⟨rfl, hr⟩]
      exact hcut
    · rw [if_neg fun hn => absurd hn.1 (by simp)]
      obtain ⟨b', hmove, hb'⟩ := hclose
      refine ⟨b', ?_, hb'⟩
      show (strlen NUL b ((u ++ '/' :: v).length + 3) >>= _) = _
      rw [show strlen NUL b ((u ++ '/' :: v).length + 3) = _ from hlen]
      exact hmove
  · rw [decide_eq_false hr, if_neg fun hn => hr hn.2]
    obtain ⟨b', hmove, hb'⟩ := hclose
    refine ⟨b', ?_, hb'⟩
    show (strlen NUL b ((u ++ '/' :: v).length + 2) >>= _) = _
    rw [show strlen NUL b ((u ++ '/' :: v).length + 2) = _ from hlen']
    exact hmove

/-- Without a name before it the `..` goes alone. -/
theorem removeFirstIn_spec {x w : Text} (h : Holds NUL k b (x ++ (['/', '.', '.'] ++ w)))
    (hw : w = [] ∨ ∃ q, w = '/' :: q) :
    ∃ b', removeFirstIn b x.length = some b' ∧
      Holds NUL k b' (if w = [] then x ++ ['/'] else x ++ w) := by
  have hread := read_behind h
  have hlen := Holds.strlen (x := x ++ ['/', '.', '.']) (y := w) (by simpa using h)
  rw [List.length_append] at hlen
  have hclose := Holds.close h (a := x.length + 3) (n := w.length + 1) rfl rfl
  have hcut := Holds.cut (x := x ++ ['/']) (y := ['.', '.'] ++ w) (by simpa using h)
  rw [List.length_append, List.length_singleton] at hcut
  unfold removeFirstIn
  rw [show read b (x.length + 3) = _ from hread]
  obtain rfl | ⟨q, rfl⟩ := hw
  · exact hcut
  · rw [if_neg (by simp)]
    obtain ⟨b', hmove, hb'⟩ := hclose
    refine ⟨b', ?_, hb'⟩
    show (strlen NUL b (x.length + 3) >>= _) = _
    rw [show strlen NUL b (x.length + 3) = _ from hlen]
    exact hmove

theorem strstr_self {pat c : Text} (h : pat <+: c) : strstr pat c = some ([], c) := by
  cases c with
  | nil =>
      rw [List.prefix_nil] at h
      rw [strstr, if_pos h]
  | cons d c => rw [strstr, if_pos (List.isPrefixOf_iff_prefix.mpr h)]

/-- From the pointer that `strstr(pszPath, "/..")` gives the loop goes on as from `pszPath`. -/
theorem cutDotDotsIn_next (h : Holds NUL k b s) {next : Option ℕ}
    (hnext : strstrAt b 0 ['/', '.', '.'] = some next) (n : ℕ) :
    cutDotDotsIn (n + 1) b next = cutDotDotsIn (n + 1) b (some 0) := by
  have hat := strstrAt_start h ['/', '.', '.']
  rw [hat, Option.some.injEq] at hnext
  cases hs : strstr ['/', '.', '.'] s with
  | none =>
      rw [hs] at hat hnext
      rw [← hnext, cutDotDotsIn, hat]
      rfl
  | some m =>
      obtain ⟨y, c⟩ := m
      rw [hs] at hat hnext
      obtain ⟨rfl, hpre⟩ := strstr_some hs
      have hself := strstrAt_of h ['/', '.', '.']
      rw [strstr_self hpre] at hself
      rw [← hnext]
      show cutDotDotsIn (n + 1) b (some y.length) = _
      rw [cutDotDotsIn, cutDotDotsIn, hat, hself]
      rfl

/-- A round that takes a `..` away: what is left is searched from its start. -/
theorem cutDotDotsIn_up {t : Text} {a : ℕ} {b' : Cells} (hb' : Holds NUL k b' t)
    (hwalk : walkBackIn b a a = some b') {Q : Cells → Prop}
    (h : Arrives (fun n => cutDotDotsIn n b' (some 0)) Q) :
    Arrives (fun n => walkBackIn b a a >>= fun b => strstrAt b 0 ['/', '.', '.'] >>= fun next =>
      cutDotDotsIn n b next) Q := by
  have hat := strstrAt_start hb' ['/', '.', '.']
  refine h.of_agree ?_
  intro n
  rw [hwalk]
  show (strstrAt b' 0 ['/', '.', '.'] >>= _) = _
  rw [hat]
  exact cutDotDotsIn_next hb' hat n

/-- One round at a match: what follows the `..` decides. -/
theorem cutDotDotsIn_match {x a y w : Text} (h : Holds NUL k b (x ++ a))
    (hs : strstr ['/', '.', '.'] a = some (y, ['/', '.', '.'] ++ w)) (n : ℕ) :
    cutDotDotsIn (n + 1) b (some x.length) =
      if w.head?.getD NUL = '/' ∨ w.head?.getD NUL = NUL then
        if (x ++ y).length = 0 then
          if w.head?.getD NUL = '/' then
            strlen NUL b 2 >>= fun len => move b 0 3 len >>= fun b => cutDotDotsIn n b (some 0)
          else write b 1 NUL
        else
          walkBackIn b (x ++ y).length (x ++ y).length >>= fun b =>
            strstrAt b 0 ['/', '.', '.'] >>= fun next => cutDotDotsIn n b next
      else cutDotDotsIn n b (some ((x ++ y).length + 1)) := by
  have hat := strstrAt_of h ['/', '.', '.']
  rw [hs] at hat
  obtain ⟨rfl, -⟩ := strstr_some hs
  rw [← List.append_assoc] at h
  have hread := read_behind h
  rw [List.length_append] at hread ⊢
  rw [cutDotDotsIn, hat]
  show (read b (x.length + y.length + 3) >>= _) = _
  rw [show read b (x.length + y.length + 3) = _ from hread]
  rfl

/-- A round that takes the `..` away with the name before it. -/
theorem cutDotDotsIn_name {x a y u v w t : Text} (h : Holds NUL k b (x ++ a))
    (hs : strstr ['/', '.', '.'] a = some (y, ['/', '.', '.'] ++ w))
    (hw : w = [] ∨ ∃ q, w = '/' :: q) (hl : lastSlash (x ++ y) = some (u, v))
    (ht : (if w = [] ∧ (u = [] ∨ (u.length = 2 ∧ isDrive (x ++ y) = true)) then u ++ ['/']
      else u ++ w) = t) {Q : Cells → Prop}
    (hrest : ∀ b', Holds NUL k b' t → Arrives (fun n => cutDotDotsIn n b' (some 0)) Q) :
    Arrives (fun n => cutDotDotsIn n b (some x.length)) Q := by
  have hmatch := cutDotDotsIn_match h hs
  obtain ⟨rfl, -⟩ := strstr_some hs
  rw [← List.append_assoc] at h
  obtain ⟨hcut, hv⟩ := lastSlash_some hl
  rw [hcut] at h ht hmatch
  obtain ⟨b', hremove, hb'⟩ := removeUpIn_spec h hw
  rw [ht] at hb'
  have hwalk : walkBackIn b (u ++ '/' :: v).length (u ++ '/' :: v).length = some b' := by
    rw [walkBackIn_some hv h, hremove]
  refine (cutDotDotsIn_up hb' hwalk (hrest b' hb')).round ?_
  intro n
  have hend : w.head?.getD NUL = '/' ∨ w.head?.getD NUL = NUL := by
    obtain rfl | ⟨q, rfl⟩ := hw
    · exact .inr rfl
    · exact .inl rfl
  rw [hmatch, if_pos hend, if_neg (by simp)]

/-- A round that takes away a `..` behind a first piece without a slash. -/
theorem cutDotDotsIn_first {x a y w t : Text} (h : Holds NUL k b (x ++ a))
    (hs : strstr ['/', '.', '.'] a = some (y, ['/', '.', '.'] ++ w))
    (hw : w = [] ∨ ∃ q, w = '/' :: q) (hne : x ++ y ≠ []) (hl : lastSlash (x ++ y) = none)
    (ht : (if w = [] then x ++ y ++ ['/'] else x ++ y ++ w) = t) {Q : Cells → Prop}
    (hrest : ∀ b', Holds NUL k b' t → Arrives (fun n => cutDotDotsIn n b' (some 0)) Q) :
    Arrives (fun n => cutDotDotsIn n b (some x.length)) Q := by
  have hmatch := cutDotDotsIn_match h hs
  obtain ⟨rfl, -⟩ := strstr_some hs
  rw [← List.append_assoc] at h
  obtain ⟨b', hremove, hb'⟩ := removeFirstIn_spec h hw
  rw [ht] at hb'
  have hwalk : walkBackIn b (x ++ y).length (x ++ y).length = some b' := by
    rw [walkBackIn_none (lastSlash_none hl) hne h, hremove]
  refine (cutDotDotsIn_up hb' hwalk (hrest b' hb')).round ?_
  intro n
  have hend : w.head?.getD NUL = '/' ∨ w.head?.getD NUL = NUL := by
    obtain rfl | ⟨q, rfl⟩ := hw
    · exact .inr rfl
    · exact .inl rfl
  have hpos := List.length_pos_of_ne_nil hne
  rw [hmatch, if_pos hend, if_neg (by omega)]

theorem eq_cons_of_third {w : Text} (h : (['/', '.', '.'] ++ w)[3]? = some '/') :
    ∃ q, w = '/' :: q := by
  cases w with
  | nil => simp at h
  | cons c q => exact ⟨q, by simpa using h⟩

theorem eq_nil_of_third {w : Text} (h : (['/', '.', '.'] ++ w)[3]? = none) : w = [] := by
  simpa using h

theorem cutDotDotsIn_spec {x a : Text} (h : Holds NUL k b (x ++ a)) :
    Arrives (fun n => cutDotDotsIn n b (some x.length)) fun b' =>
      Holds NUL k b' (cutDotDots x a) := by
  fun_induction cutDotDots x a generalizing b with
  | case1 x a hs =>
      refine Arrives.last h ?_
      intro n
      rw [cutDotDotsIn, strstrAt_of h, hs]
      rfl
  | case2 x a y m hs hthird hxy ih =>
      have hmatch := fun w hs => cutDotDotsIn_match (w := w) (y := y) h hs
      obtain ⟨rfl, w, rfl⟩ := strstr_some hs
      obtain ⟨q, rfl⟩ := eq_cons_of_third hthird
      rw [← List.append_assoc, hxy] at h
      have hlen := Holds.strlen (x := ['/', '.']) (y := '.' :: '/' :: q) h
      obtain ⟨b', hmove, hb'⟩ := Holds.close (x := []) (g := ['/', '.', '.']) (y := '/' :: q) h
        (a := 3) (n := ('.' :: '/' :: q).length) rfl rfl
      refine (ih hb').round ?_
      intro n
      rw [hmatch _ hs, hxy]
      show (strlen NUL b 2 >>= _) = _
      rw [show strlen NUL b 2 = _ from hlen]
      show (move b 0 3 _ >>= _) = _
      rw [show move b 0 3 _ = _ from hmove]
      rfl
  | case3 x a y m hs hthird hxy u v hl ih =>
      obtain ⟨-, w, rfl⟩ := strstr_some hs
      obtain ⟨q, rfl⟩ := eq_cons_of_third hthird
      exact cutDotDotsIn_name h hs (.inr ⟨q, rfl⟩) hl (if_neg (by simp)) fun b' hb' => ih hb'
  | case4 x a y m hs hthird hxy hl ih =>
      obtain ⟨-, w, rfl⟩ := strstr_some hs
      obtain ⟨q, rfl⟩ := eq_cons_of_third hthird
      exact cutDotDotsIn_first h hs (.inr ⟨q, rfl⟩) hxy hl (if_neg (by simp)) fun b' hb' => ih hb'
  | case5 x a y m hs hthird hthird' hxy =>
      have hmatch := fun w hs => cutDotDotsIn_match (w := w) (y := y) h hs
      obtain ⟨rfl, w, rfl⟩ := strstr_some hs
      obtain rfl := eq_nil_of_third hthird'
      rw [← List.append_assoc, hxy] at h
      obtain ⟨b', hwrite, hb'⟩ := Holds.cut (x := ['/']) (y := ['.', '.']) h
      refine Arrives.last hb' ?_
      intro n
      rw [hmatch _ hs, hxy]
      exact hwrite
  | case6 x a y m hs hthird hthird' hxy u v hl hu ih =>
      obtain ⟨-, w, rfl⟩ := strstr_some hs
      obtain rfl := eq_nil_of_third hthird'
      exact cutDotDotsIn_name h hs (.inl rfl) hl (if_pos ⟨rfl, hu⟩) fun b' hb' => ih hb'
  | case7 x a y m hs hthird hthird' hxy u v hl hu ih =>
      obtain ⟨-, w, rfl⟩ := strstr_some hs
      obtain rfl := eq_nil_of_third hthird'
      refine cutDotDotsIn_name h hs (.inl rfl) hl (t := u) ?_ fun b' hb' => ih hb'
      rw [if_neg fun hn => hu hn.2, List.append_nil]
  | case8 x a y m hs hthird hthird' hxy hl ih =>
      obtain ⟨-, w, rfl⟩ := strstr_some hs
      obtain rfl := eq_nil_of_third hthird'
      exact cutDotDotsIn_first h hs (.inl rfl) hxy hl (if_pos rfl) fun b' hb' => ih hb'
  | case9 x a y m hs hthird hthird' ih =>
      have hmatch := fun w hs => cutDotDotsIn_match (w := w) (y := y) h hs
      obtain ⟨rfl, w, rfl⟩ := strstr_some hs
      have hnext : x ++ (y ++ (['/', '.', '.'] ++ w)) = x ++ y ++ ['/'] ++ (['.', '.'] ++ w) := by
        simp
      have hnul := Holds.head_eq_nul_iff (x := x ++ y ++ ['/', '.', '.']) (y := w) (by simpa using h)
      rw [hnext] at h
      refine (ih h).round ?_
      intro n
      have hgo : ¬ (w.head?.getD NUL = '/' ∨ w.head?.getD NUL = NUL) := by
        rintro (hslash | hend)
        · cases w with
          | nil => exact hthird' rfl
          | cons c w =>
              have hc : c = '/' := hslash
              exact hthird (by rw [hc]; rfl)
        · exact hthird' (by rw [hnul.mp hend]; rfl)
      rw [hmatch _ hs, if_neg hgo]
      have hpos : (x ++ y).length + 1 = (x ++ y ++ ['/']).length := by simp [Nat.add_assoc]
      rw [hpos]
      rfl

/-! ### The end of the string -/

/-- The test of the last character and the cut. -/
theorem cutLast_spec (h : Holds NUL k b s) (hne : s ≠ []) :
    ∃ b', (endsInSlash b s.length >>= fun e => if e then write b (s.length - 1) NUL else some b) =
        some b' ∧
      Holds NUL k b' (if s.getLast? = some '/' then s.dropLast else s) := by
  obtain rfl | ⟨t, c, rfl⟩ := List.eq_nil_or_concat' s
  · exact absurd rfl hne
  have hread := h.read
  rw [List.length_append, List.length_singleton, List.getLast?_concat, List.dropLast_concat,
    Nat.add_sub_cancel, endsInSlash, hread]
  by_cases hc : c = '/'
  · rw [if_pos (congrArg some hc)]
    obtain ⟨b', hwrite, hb'⟩ := h.cut
    refine ⟨b', ?_, hb'⟩
    show (if (c == '/') = true then write b t.length NUL else some b) = some b'
    rw [if_pos (beq_iff_eq.mpr hc), hwrite]
  · rw [if_neg fun heq => hc (Option.some.inj heq)]
    refine ⟨b, ?_, h⟩
    show (if (c == '/') = true then write b t.length NUL else some b) = some b
    rw [if_neg fun heq => hc (beq_iff_eq.mp heq)]

theorem cutSlashIn_spec (h : Holds NUL k b s) (hne : s ≠ []) (least : ℕ) :
    ∃ b', cutSlashIn b s.length least = some b' ∧
      Holds NUL k b' (if s.length > least ∧ s.getLast? = some '/' then s.dropLast else s) := by
  unfold cutSlashIn
  by_cases hlen : s.length > least
  · rw [if_pos hlen]
    simp only [hlen, true_and]
    exact cutLast_spec h hne
  · rw [if_neg hlen, if_neg fun hn => hlen hn.1]
    exact ⟨b, rfl, h⟩

theorem isDriveRootIn_spec (h : Holds NUL k b s) :
    isDriveRootIn b = some (decide (isDrive s = true ∧ s[2]? = some '/')) := by
  unfold isDriveRootIn
  rw [isDriveIn_spec h]
  by_cases hd : isDrive s = true
  · obtain ⟨c, d, t, rfl⟩ : ∃ c d t, s = c :: d :: t := by
      unfold isDrive at hd
      split at hd
      · exact ⟨_, _, _, rfl⟩
      · exact absurd hd (by simp)
    have hread := Holds.read (x := [c, d]) (y := t) h
    rw [hd]
    show (read b 2 >>= fun c => pure (c == '/')) = _
    rw [show read b 2 = _ from hread]
    cases t with
    | nil => simp [NUL]
    | cons e t => by_cases he : e = '/' <;> simp [he]
  · rw [Bool.not_eq_true] at hd
    rw [hd]
    simp

theorem cutEndingSlashIn_spec (h : Holds NUL k b s) (hne : s ≠ []) :
    ∃ b', cutEndingSlashIn b = some b' ∧ Holds NUL k b' (cutEndingSlash s) := by
  have hlen := h.strlen (x := [])
  have hread := h.read (x := [])
  unfold cutEndingSlashIn cutEndingSlash
  rw [show strlen NUL b 0 = some s.length from hlen]
  show ∃ b', (isDriveRootIn b >>= _) = _ ∧ _
  rw [isDriveRootIn_spec h]
  by_cases hd : isDrive s = true ∧ s[2]? = some '/'
  · rw [decide_eq_true hd, if_pos hd]
    exact cutSlashIn_spec h hne 3
  · rw [decide_eq_false hd, if_neg hd]
    show ∃ b', (read b 0 >>= _) = _ ∧ _
    rw [show read b 0 = some (s.head?.getD NUL) from hread]
    cases s with
    | nil => exact absurd rfl hne
    | cons c s =>
        by_cases hc : c = '/'
        · rw [hc, List.head?_cons, if_pos rfl]
          exact cutSlashIn_spec (hc ▸ h) (by simp) 1
        · rw [List.head?_cons, if_neg fun heq => hc (Option.some.inj heq)]
          have hcut := cutLast_spec h (by simp)
          show ∃ b', (if c = '/' then _ else _) = _ ∧ _
          rw [if_neg hc]
          exact hcut

/-- `strcpy(pszPath, "/")` has room in a buffer of two cells. -/
theorem lastTestIn_spec (h : Holds NUL k b s) (hk : 2 ≤ k) :
    ∃ b', lastTestIn b = some b' ∧
      Holds NUL k b' (if s = [] ∨ s = ['.', '.'] ∨ s = ['.'] then ['/'] else s) := by
  have hstr := h.stringAt (x := [])
  unfold lastTestIn
  rw [show stringAt NUL b 0 = some s from hstr]
  by_cases hs : s = [] ∨ s = ['.', '.'] ∨ s = ['.']
  · rw [if_pos hs]
    show ∃ b', (if s = [] ∨ s = ['.', '.'] ∨ s = ['.'] then _ else _) = _ ∧ _
    rw [if_pos hs]
    have hsize := h.size
    match b, hsize with
    | [], hsize =>
        rw [List.length_nil] at hsize
        omega
    | [_], hsize =>
        rw [List.length_singleton] at hsize
        omega
    | c :: d :: r, hsize => exact ⟨'/' :: NUL :: r, rfl, by decide, hsize, r, rfl⟩
  · rw [if_neg hs]
    refine ⟨b, ?_, h⟩
    show (if s = [] ∨ s = ['.', '.'] ∨ s = ['.'] then _ else some b) = some b
    rw [if_neg hs]

/-! ### No pass empties the string -/

theorem slashes_ne_nil (h : s ≠ []) : slashes s ≠ [] := by
  intro hnil
  exact h (List.map_eq_nil_iff.mp hnil)

theorem squeezeSlashes_ne_nil (h : s ≠ []) : squeezeSlashes s ≠ [] := by
  fun_induction squeezeSlashes s with
  | case1 s hs => exact h
  | case2 s x a hs ih =>
      obtain ⟨rfl, w, rfl⟩ := strstr_some hs
      exact ih (by simp)

theorem dropDots_ne_nil (h : s ≠ []) : dropDots s ≠ [] := by
  fun_induction dropDots s with
  | case1 s hs => exact h
  | case2 s x a hs ih =>
      obtain ⟨rfl, w, rfl⟩ := strstr_some hs
      exact ih (by simp)

theorem drop_ne_nil_of_prefix {pat : Text} {n : ℕ} (h : pat.isPrefixOf s = true)
    (hn : n < pat.length) : s.drop n ≠ [] := by
  have hle := (List.isPrefixOf_iff_prefix.mp h).length_le
  intro hnil
  rw [List.drop_eq_nil_iff] at hnil
  omega

theorem dropLeadingDots_ne_nil (h : s ≠ []) : dropLeadingDots s ≠ [] := by
  have hfirst : (if ['.', '/'].isPrefixOf s then s.drop 1 else s) ≠ [] := by
    split_ifs with hp
    · exact drop_ne_nil_of_prefix hp (by decide)
    · exact h
  unfold dropLeadingDots
  generalize (if ['.', '/'].isPrefixOf s then s.drop 1 else s) = t at hfirst
  show (if ['.', '.', '/'].isPrefixOf t then t.drop 2 else t) ≠ []
  split_ifs with hp
  · exact drop_ne_nil_of_prefix hp (by decide)
  · exact hfirst

theorem cutFirstDot_ne_nil (h : s ≠ []) : cutFirstDot s ≠ [] := by
  obtain heq | ⟨z, -, heq⟩ := cutFirstDot_cases s
  · rw [heq]
    exact h
  · rw [heq]
    simp

theorem cutLastDot_ne_nil {x a : Text} (h : x ++ a ≠ []) : cutLastDot x a ≠ [] := by
  fun_induction cutLastDot x a with
  | case1 x a hs => exact h
  | case2 x a y m hs htwo ih => exact ih (by simp)
  | case3 x a y m hs htwo ih =>
      obtain ⟨rfl, w, rfl⟩ := strstr_some hs
      exact ih (by simp)

theorem cutDotDots_ne_nil {x a : Text} (h : x ++ a ≠ []) : cutDotDots x a ≠ [] := by
  fun_induction cutDotDots x a with
  | case1 x a hs => exact h
  | case2 x a y m hs hthird hxy ih =>
      obtain ⟨-, w, rfl⟩ := strstr_some hs
      obtain ⟨q, rfl⟩ := eq_cons_of_third hthird
      exact ih (by simp)
  | case3 x a y m hs hthird hxy u v hl ih =>
      obtain ⟨-, w, rfl⟩ := strstr_some hs
      obtain ⟨q, rfl⟩ := eq_cons_of_third hthird
      exact ih (by simp)
  | case4 x a y m hs hthird hxy hl ih =>
      obtain ⟨-, w, rfl⟩ := strstr_some hs
      obtain ⟨q, rfl⟩ := eq_cons_of_third hthird
      exact ih (by simp)
  | case5 x a y m hs hthird hthird' hxy => simp
  | case6 x a y m hs hthird hthird' hxy u v hl hu ih => exact ih (by simp)
  | case7 x a y m hs hthird hthird' hxy u v hl hu ih => exact ih fun hnil => hu (.inl hnil)
  | case8 x a y m hs hthird hthird' hxy hl ih => exact ih (by simp)
  | case9 x a y m hs hthird hthird' ih =>
      obtain ⟨-, w, rfl⟩ := strstr_some hs
      exact ih (by simp)

/-! ### The whole function -/

/-- **The run in the buffer** ends, stays inside, and leaves the simplified string. -/
theorem simplifyPathIn_spec (h : Holds NUL k b s) :
    Arrives (fun n => simplifyPathIn n b) fun b' => Holds NUL k b' (simplifyPath s) := by
  have hread := h.read (x := [])
  by_cases hs : s = []
  · subst hs
    have hempty : simplifyPath [] = [] := by rw [simplifyPath, if_pos rfl]
    rw [hempty]
    refine Arrives.last (v := b) h ?_
    intro n
    unfold simplifyPathIn
    rw [show read b 0 = some NUL from hread]
    rfl
  have hk : 2 ≤ k := by
    have hlt := h.length_lt
    have hpos := List.length_pos_of_ne_nil hs
    omega
  have hfirst : ¬ s.head?.getD NUL = NUL := fun heq =>
    hs ((Holds.head_eq_nul_iff (x := []) h).mp heq)
  have hpasses : ∀ n, simplifyPathIn n b = slashesIn n b 0 >>= fun b =>
      squeezeSlashesIn n b >>= fun b => dropDotsIn n b >>= fun b => dropLeadingDotIn b >>= fun b =>
      dropLeadingDotDotIn b >>= fun b => cutFirstDotIn b >>= fun b => cutLastDotIn n b 0 >>= fun b =>
      cutDotDotsIn n b (some 0) >>= fun b => cutEndingSlashIn b >>= fun b => lastTestIn b := by
    intro n
    unfold simplifyPathIn
    rw [show read b 0 = some (s.head?.getD NUL) from hread]
    exact if_neg hfirst
  simp only [hpasses]
  refine (slashesIn_spec (x := []) h).bind fun b₁ h₁ => ?_
  refine (squeezeSlashesIn_spec h₁).bind fun b₂ h₂ => ?_
  refine (dropDotsIn_spec h₂).bind fun b₃ h₃ => ?_
  refine (Arrives.of_some (dropLeadingDotIn_spec h₃)).bind fun b₄ h₄ => ?_
  refine (Arrives.of_some (dropLeadingDotDotIn_spec h₄)).bind fun b₅ h₅ => ?_
  refine (Arrives.of_some (cutFirstDotIn_spec h₅)).bind fun b₆ h₆ => ?_
  refine (cutLastDotIn_spec (x := []) h₆).bind fun b₇ h₇ => ?_
  refine (cutDotDotsIn_spec (x := []) h₇).bind fun b₈ h₈ => ?_
  have hne : cutDotDots [] (beforeDotDots s) ≠ [] := by
    have hbefore : beforeDotDots s ≠ [] :=
      cutLastDot_ne_nil (x := []) (cutFirstDot_ne_nil (dropLeadingDots_ne_nil
        (dropDots_ne_nil (squeezeSlashes_ne_nil (slashes_ne_nil hs)))))
    exact cutDotDots_ne_nil (x := []) hbefore
  refine (Arrives.of_some (cutEndingSlashIn_spec h₈ hne)).bind fun b₉ h₉ => ?_
  rw [simplifyPath_eq hs rfl]
  exact Arrives.of_some (lastTestIn_spec h₉ hk)

/-! ### The cells behind the string -/

section Behind

variable (t : Cells) (b : Cells)

theorem strstrAt_lifts (p : ℕ) (pat : Text) :
    Lifts Eq (strstrAt b p pat) (strstrAt (b ++ t) p pat) := by
  intro found hfound
  unfold strstrAt at hfound ⊢
  rw [Option.map_eq_some_iff] at hfound
  obtain ⟨s, hs, rfl⟩ := hfound
  obtain ⟨s', hs', rfl⟩ := stringAt_lifts t NUL b p s hs
  rw [hs']
  exact ⟨_, rfl, rfl⟩

theorem startsWith_lifts (pat : Text) :
    Lifts Eq (startsWith b pat) (startsWith (b ++ t) pat) := by
  intro found hfound
  unfold startsWith at hfound ⊢
  rw [Option.map_eq_some_iff] at hfound
  obtain ⟨s, hs, rfl⟩ := hfound
  obtain ⟨s', hs', rfl⟩ := stringAt_lifts t NUL b 0 s hs
  rw [hs']
  exact ⟨_, rfl, rfl⟩

theorem same_lifts : Lifts (Before t) (some b) (some (b ++ t)) := Lifts.ret rfl

theorem slashesIn_lifts (n a : ℕ) :
    Lifts (Before t) (slashesIn n b a) (slashesIn n (b ++ t) a) := by
  induction n generalizing b a with
  | zero => exact Lifts.none
  | succ n ih =>
      refine (read_lifts t b a).bind_eq fun c => ?_
      split_ifs
      · exact same_lifts t b
      · refine (write_lifts t b a '/').bind fun b' _ hb' => ?_
        rw [hb']
        exact ih b' (a + 1)
      · exact ih b (a + 1)

theorem squeezeSlashesIn_lifts (n : ℕ) :
    Lifts (Before t) (squeezeSlashesIn n b) (squeezeSlashesIn n (b ++ t)) := by
  induction n generalizing b with
  | zero => exact Lifts.none
  | succ n ih =>
      refine (strstrAt_lifts t b 0 ['/', '/']).bind_eq fun found => ?_
      cases found with
      | none => exact same_lifts t b
      | some a =>
          refine (strlen_lifts t NUL b a).bind_eq fun len => ?_
          refine (move_lifts t b a (a + 1) len).bind fun b' _ hb' => ?_
          rw [hb']
          exact ih b'

theorem dropDotsIn_lifts (n : ℕ) :
    Lifts (Before t) (dropDotsIn n b) (dropDotsIn n (b ++ t)) := by
  induction n generalizing b with
  | zero => exact Lifts.none
  | succ n ih =>
      refine (strstrAt_lifts t b 0 ['/', '.', '/']).bind_eq fun found => ?_
      cases found with
      | none => exact same_lifts t b
      | some a =>
          refine (strlen_lifts t NUL b (a + 1)).bind_eq fun len => ?_
          refine (move_lifts t b a (a + 2) len).bind fun b' _ hb' => ?_
          rw [hb']
          exact ih b'

theorem dropLeadingDotIn_lifts :
    Lifts (Before t) (dropLeadingDotIn b) (dropLeadingDotIn (b ++ t)) := by
  refine (startsWith_lifts t b ['.', '/']).bind_eq fun found => ?_
  split_ifs
  · exact (strlen_lifts t NUL b 0).bind_eq fun len => move_lifts t b 0 1 len
  · exact same_lifts t b

theorem dropLeadingDotDotIn_lifts :
    Lifts (Before t) (dropLeadingDotDotIn b) (dropLeadingDotDotIn (b ++ t)) := by
  refine (startsWith_lifts t b ['.', '.', '/']).bind_eq fun found => ?_
  split_ifs
  · exact (strlen_lifts t NUL b 1).bind_eq fun len => move_lifts t b 0 2 len
  · exact same_lifts t b

theorem cutFirstDotIn_lifts : Lifts (Before t) (cutFirstDotIn b) (cutFirstDotIn (b ++ t)) := by
  refine (strstrAt_lifts t b 0 ['/', '.']).bind_eq fun found => ?_
  cases found with
  | none => exact same_lifts t b
  | some a =>
      refine (read_lifts t b (a + 2)).bind_eq fun c => ?_
      split_ifs
      · exact write_lifts t b (a + 1) NUL
      · exact same_lifts t b

theorem cutLastDotIn_lifts (n a : ℕ) :
    Lifts (Before t) (cutLastDotIn n b a) (cutLastDotIn n (b ++ t) a) := by
  induction n generalizing b a with
  | zero => exact Lifts.none
  | succ n ih =>
      refine (strstrAt_lifts t b a ['/', '.']).bind_eq fun found => ?_
      cases found with
      | none => exact same_lifts t b
      | some a =>
          refine (read_lifts t b (a + 2)).bind_eq fun c => ?_
          split_ifs
          · refine (write_lifts t b (a + 1) NUL).bind fun b' _ hb' => ?_
            rw [hb']
            exact ih b' a
          · exact ih b (a + 1)

theorem isDriveIn_lifts : Lifts Eq (isDriveIn b) (isDriveIn (b ++ t)) := by
  refine (read_lifts t b 0).bind_eq fun c => ?_
  split_ifs
  · exact (read_lifts t b 1).bind_eq fun d => Lifts.ret rfl
  · exact Lifts.ret rfl

theorem atRootIn_lifts (p : ℕ) : Lifts Eq (atRootIn b p) (atRootIn (b ++ t) p) := by
  unfold atRootIn
  split_ifs
  · exact Lifts.ret rfl
  · exact isDriveIn_lifts t b
  · exact Lifts.ret rfl

theorem removeUpIn_lifts (a p : ℕ) :
    Lifts (Before t) (removeUpIn b a p) (removeUpIn (b ++ t) a p) := by
  refine (atRootIn_lifts t b p).bind_eq fun root => ?_
  split_ifs
  · refine (read_lifts t b (a + 3)).bind_eq fun c => ?_
    split_ifs
    · exact (strlen_lifts t NUL b (a + 3)).bind_eq fun len => move_lifts t b p (a + 3) (len + 1)
    · exact write_lifts t b (p + 1) NUL
  · exact (strlen_lifts t NUL b (a + 2)).bind_eq fun len => move_lifts t b p (a + 3) len

theorem removeFirstIn_lifts (a : ℕ) :
    Lifts (Before t) (removeFirstIn b a) (removeFirstIn (b ++ t) a) := by
  refine (read_lifts t b (a + 3)).bind_eq fun c => ?_
  split_ifs
  · exact (strlen_lifts t NUL b (a + 3)).bind_eq fun len => move_lifts t b a (a + 3) (len + 1)
  · exact write_lifts t b (a + 1) NUL

theorem walkBackIn_lifts (a p : ℕ) :
    Lifts (Before t) (walkBackIn b a p) (walkBackIn (b ++ t) a p) := by
  induction p with
  | zero => exact same_lifts t b
  | succ p ih =>
      refine (read_lifts t b p).bind_eq fun c => ?_
      split_ifs
      · exact removeUpIn_lifts t b a p
      · exact removeFirstIn_lifts t b a
      · exact ih

theorem cutDotDotsIn_lifts (n : ℕ) (a : Option ℕ) :
    Lifts (Before t) (cutDotDotsIn n b a) (cutDotDotsIn n (b ++ t) a) := by
  induction n generalizing b a with
  | zero => exact Lifts.none
  | succ n ih =>
      cases a with
      | none => exact same_lifts t b
      | some a =>
          refine (strstrAt_lifts t b a ['/', '.', '.']).bind_eq fun found => ?_
          cases found with
          | none => exact same_lifts t b
          | some a =>
              refine (read_lifts t b (a + 3)).bind_eq fun c => ?_
              split_ifs
              · refine (strlen_lifts t NUL b 2).bind_eq fun len => ?_
                refine (move_lifts t b 0 3 len).bind fun b' _ hb' => ?_
                rw [hb']
                exact ih b' (some 0)
              · exact write_lifts t b 1 NUL
              · refine (walkBackIn_lifts t b a a).bind fun b' _ hb' => ?_
                rw [hb']
                exact (strstrAt_lifts t b' 0 ['/', '.', '.']).bind_eq fun next => ih b' next
              · exact ih b (some (a + 1))

theorem endsInSlash_lifts (len : ℕ) : Lifts Eq (endsInSlash b len) (endsInSlash (b ++ t) len) := by
  cases len with
  | zero => exact Lifts.none
  | succ len =>
      intro found hfound
      have hread : (read b len).map (fun c => c == '/') = some found := hfound
      rw [Option.map_eq_some_iff] at hread
      obtain ⟨c, hc, rfl⟩ := hread
      obtain ⟨c', hc', rfl⟩ := read_lifts t b len c hc
      refine ⟨c == '/', ?_, rfl⟩
      show (read (b ++ t) len).map (fun c => c == '/') = _
      rw [hc']
      rfl

theorem cutSlashIn_lifts (len least : ℕ) :
    Lifts (Before t) (cutSlashIn b len least) (cutSlashIn (b ++ t) len least) := by
  unfold cutSlashIn
  split_ifs
  · refine (endsInSlash_lifts t b len).bind_eq fun found => ?_
    split_ifs
    · exact write_lifts t b (len - 1) NUL
    · exact same_lifts t b
  · exact same_lifts t b

theorem isDriveRootIn_lifts : Lifts Eq (isDriveRootIn b) (isDriveRootIn (b ++ t)) := by
  refine (isDriveIn_lifts t b).bind_eq fun found => ?_
  split_ifs
  · exact (read_lifts t b 2).bind_eq fun c => Lifts.ret rfl
  · exact Lifts.ret rfl

theorem cutEndingSlashIn_lifts :
    Lifts (Before t) (cutEndingSlashIn b) (cutEndingSlashIn (b ++ t)) := by
  refine (strlen_lifts t NUL b 0).bind_eq fun len => ?_
  refine (isDriveRootIn_lifts t b).bind_eq fun found => ?_
  split_ifs
  · exact cutSlashIn_lifts t b len 3
  · refine (read_lifts t b 0).bind_eq fun c => ?_
    split_ifs
    · exact cutSlashIn_lifts t b len 1
    · refine (endsInSlash_lifts t b len).bind_eq fun found => ?_
      split_ifs
      · exact write_lifts t b (len - 1) NUL
      · exact same_lifts t b

theorem lastTestIn_lifts : Lifts (Before t) (lastTestIn b) (lastTestIn (b ++ t)) := by
  refine (stringAt_lifts t NUL b 0).bind_eq fun s => ?_
  split_ifs
  · refine (write_lifts t b 0 '/').bind fun b' _ hb' => ?_
    rw [hb']
    exact write_lifts t b' 1 NUL
  · exact same_lifts t b

/-- **`SimplifyPath` leaves the cells behind the string alone.** -/
theorem simplifyPathIn_lifts (n : ℕ) :
    Lifts (Before t) (simplifyPathIn n b) (simplifyPathIn n (b ++ t)) := by
  refine (read_lifts t b 0).bind_eq fun c => ?_
  split_ifs
  · exact same_lifts t b
  · refine (slashesIn_lifts t b n 0).bind fun b₁ _ h₁ => ?_
    rw [h₁]
    refine (squeezeSlashesIn_lifts t b₁ n).bind fun b₂ _ h₂ => ?_
    rw [h₂]
    refine (dropDotsIn_lifts t b₂ n).bind fun b₃ _ h₃ => ?_
    rw [h₃]
    refine (dropLeadingDotIn_lifts t b₃).bind fun b₄ _ h₄ => ?_
    rw [h₄]
    refine (dropLeadingDotDotIn_lifts t b₄).bind fun b₅ _ h₅ => ?_
    rw [h₅]
    refine (cutFirstDotIn_lifts t b₅).bind fun b₆ _ h₆ => ?_
    rw [h₆]
    refine (cutLastDotIn_lifts t b₆ n 0).bind fun b₇ _ h₇ => ?_
    rw [h₇]
    refine (cutDotDotsIn_lifts t b₇ n (some 0)).bind fun b₈ _ h₈ => ?_
    rw [h₈]
    refine (cutEndingSlashIn_lifts t b₈).bind fun b₉ _ h₉ => ?_
    rw [h₉]
    exact lastTestIn_lifts t b₉

end Behind

/-- **`SimplifyPath`** of a string that starts with a slash or a backslash, in a buffer that is the
string and its terminator: it ends, and the buffer holds the path of the names the string leads to.
A second call leaves the path as it is. -/
theorem simplifyPath_in_place (hnul : NUL ∉ s) (hslash : s.head? = some '/' ∨ s.head? = some '\\') :
    Arrives (fun n => simplifyPathIn n (s ++ [NUL])) fun b =>
      Holds NUL (s.length + 1) b (absolute '/' (below '/' '.' (slashes s))) ∧
        Arrives (fun n => simplifyPathIn n b) fun b' =>
          Holds NUL (s.length + 1) b' (absolute '/' (below '/' '.' (slashes s))) := by
  have hne : s ≠ [] := by
    rintro rfl
    simp at hslash
  have hlead : lead '/' (slashes s) = [] := by
    cases s with
    | nil => exact absurd rfl hne
    | cons c s =>
        obtain hc | hc := hslash
        · rw [List.head?_cons, Option.some.injEq] at hc
          rw [hc]
          exact lead_cons_sep '/' (slashes s)
        · rw [List.head?_cons, Option.some.injEq] at hc
          rw [hc]
          exact lead_cons_sep '/' (slashes s)
  have hsimple := simplifyPath_absolute hne hlead
  have hagain := simplifyPath_canonical ⟨_, isEntry_of_mem_below s, rfl⟩
  refine (simplifyPathIn_spec (holds_append hnul)).mono ?_
  intro b hb
  rw [hsimple] at hb
  refine ⟨hb, ?_⟩
  have hsecond := simplifyPathIn_spec hb
  rw [hagain] at hsecond
  exact hsecond

/-- `/a/../b`. -/
theorem simplifyPath_in_place_up :
    Arrives (fun n => simplifyPathIn n ("/a/../b".toList ++ [NUL])) fun b =>
      Holds NUL ("/a/../b".toList.length + 1) b
          (absolute '/' (below '/' '.' (slashes "/a/../b".toList))) ∧
        Arrives (fun n => simplifyPathIn n b) fun b' =>
          Holds NUL ("/a/../b".toList.length + 1) b'
            (absolute '/' (below '/' '.' (slashes "/a/../b".toList))) :=
  simplifyPath_in_place (by decide) (by decide)

end ClusterFtpd
