import ClusterFtpd.CommandLine

/-!
# Reading decimal numbers

What `atoi` and `%u` make of digits that stand in front of something else, and of the digits that
`%u` and `%lu` print.
-/

namespace ClusterFtpd

open MachineInt

/-- Digits, and behind them something that does not begin with a digit. -/
structure DigitsThen (ds rest : Text) : Prop where
  digits : ∀ c ∈ ds, c.isDigit
  notNil : ds ≠ []
  stops : ∀ c ∈ rest.head?, c.isDigit = false

variable {ds rest : Text}

theorem DigitsThen.takeWhile (h : DigitsThen ds rest) :
    (ds ++ rest).takeWhile Char.isDigit = ds := by
  have hrest : rest.takeWhile Char.isDigit = [] := by
    cases rest with
    | nil => rfl
    | cons c rest =>
        apply List.takeWhile_cons_of_neg
        rw [h.stops c rfl]
        exact Bool.false_ne_true
  rw [List.takeWhile_append_of_pos h.digits, hrest, List.append_nil]

theorem DigitsThen.dropWhile (h : DigitsThen ds rest) :
    (ds ++ rest).dropWhile Char.isDigit = rest := by
  have hrest : rest.dropWhile Char.isDigit = rest := by
    cases rest with
    | nil => rfl
    | cons c rest =>
        apply List.dropWhile_cons_of_neg
        rw [h.stops c rfl]
        exact Bool.false_ne_true
  rw [List.dropWhile_append_of_pos h.digits, hrest]

theorem DigitsThen.digitsValue (h : DigitsThen ds rest) :
    digitsValue (ds ++ rest) = Nat.ofDigitChars 10 ds 0 := by
  rw [ClusterFtpd.digitsValue, h.takeWhile, Nat.ofDigitChars_eq_foldl]

theorem isspace_of_isDigit {c : Char} (h : c.isDigit) : isspace c = false := by
  have hle : '0'.toNat ≤ c.toNat := (Char.isDigit_iff_toNat.1 h).1
  apply decide_eq_false
  intro hspace
  cases hspace with
  | inl heq =>
      rw [heq] at hle
      exact absurd hle (by decide)
  | inr hcontrol =>
      have hcontrol : c.toNat ≤ '\r'.toNat := UInt32.le_iff_toNat_le.1 hcontrol.2
      exact absurd (hle.trans hcontrol) (by decide)

/-- In front of digits there is no blank and no sign. -/
theorem DigitsThen.signedDigits (h : DigitsThen ds rest) :
    signedDigits (ds ++ rest) = (false, ds ++ rest) := by
  cases ds with
  | nil => exact absurd rfl h.notNil
  | cons c ds =>
      have hc : c.isDigit := h.digits c List.mem_cons_self
      have hblank : (c :: ds ++ rest).dropWhile isspace = c :: ds ++ rest := by
        apply List.dropWhile_cons_of_neg
        rw [isspace_of_isDigit hc]
        exact Bool.false_ne_true
      unfold ClusterFtpd.signedDigits
      rw [hblank]
      split
      · rename_i hsign
        rw [(List.cons.inj hsign).1] at hc
        exact absurd hc (by decide)
      · rename_i hsign
        rw [(List.cons.inj hsign).1] at hc
        exact absurd hc (by decide)
      · rfl

/-- `%u` reads digits that stand for an `unsigned int`. -/
theorem DigitsThen.scanUnsigned (h : DigitsThen ds rest)
    (hlt : Nat.ofDigitChars 10 ds 0 < 4294967296) :
    scanUnsigned (ds ++ rest) = some (Nat.ofDigitChars 10 ds 0, rest) := by
  have hsome : ¬ ds.isEmpty = true := fun hempty => h.notNil (List.isEmpty_iff.1 hempty)
  have hle : ¬ 18446744073709551615 < Nat.ofDigitChars 10 ds 0 := by omega
  unfold ClusterFtpd.scanUnsigned
  simp only [h.signedDigits, h.takeWhile, h.dropWhile, h.digitsValue]
  rw [if_neg hsome, if_neg hle, if_neg Bool.false_ne_true, u32_natCast hlt]

/-- The digits of a number, in front of a separator or at the end. -/
theorem digitsThen_toDigits (n : ℕ) (hstops : ∀ c ∈ rest.head?, c.isDigit = false) :
    DigitsThen (Nat.toDigits 10 n) rest where
  digits := fun _ => Nat.isDigit_of_mem_toDigits (by decide) (by decide)
  notNil := Nat.toDigits_ne_nil
  stops := hstops

/-- `%u` reads what `%u` prints. -/
theorem scanUnsigned_toDigits {n : ℕ} (hn : n < 4294967296)
    (hstops : ∀ c ∈ rest.head?, c.isDigit = false) :
    scanUnsigned (Nat.toDigits 10 n ++ rest) = some (n, rest) := by
  have h := (digitsThen_toDigits n hstops).scanUnsigned
  rw [Nat.ofDigitChars_ten_toDigits] at h
  exact h hn

/-! ### Lists of numbers -/

/-- Numbers separated by commas, as `%u,%u` prints them. -/
def numberList : List ℕ → Text
  | [] => []
  | [n] => Nat.toDigits 10 n
  | n :: m :: ns => Nat.toDigits 10 n ++ ',' :: numberList (m :: ns)

/-- `sscanf` reads a list of numbers that was printed. -/
theorem scanList_numberList {ns : List ℕ} (h : ∀ n ∈ ns, n < 4294967296) :
    scanList ns.length (numberList ns) = some ns := by
  induction ns with
  | nil => rfl
  | cons n ns ih =>
      have hn : n < 4294967296 := h n List.mem_cons_self
      cases ns with
      | nil =>
          have hscan : scanUnsigned (Nat.toDigits 10 n ++ []) = some (n, []) :=
            scanUnsigned_toDigits hn fun c hc => nomatch hc
          rw [List.append_nil] at hscan
          show (scanUnsigned (Nat.toDigits 10 n)).map _ = _
          rw [hscan]
          rfl
      | cons m ns =>
          have hcomma : ∀ c ∈ (',' :: numberList (m :: ns)).head?, c.isDigit = false := by
            intro c hc
            cases hc
            decide
          have hscan := scanUnsigned_toDigits hn hcomma
          have htail := ih fun x hx => h x (List.mem_cons_of_mem n hx)
          show scanList (ns.length + 2) (Nat.toDigits 10 n ++ ',' :: numberList (m :: ns)) = _
          unfold scanList
          rw [hscan]
          show (scanList (ns.length + 1) (numberList (m :: ns))).map _ = _
          rw [show ns.length + 1 = (m :: ns).length from rfl, htail]
          rfl

/-- The number of digits in a list of numbers. -/
def digitCount (ns : List ℕ) : ℕ := (ns.map fun n => (Nat.toDigits 10 n).length).sum

/-- Bytes have at most three digits. -/
theorem digitCount_le {ns : List ℕ} (h : ∀ n ∈ ns, n ≤ 255) : digitCount ns ≤ 3 * ns.length := by
  induction ns with
  | nil => exact Nat.le_refl 0
  | cons n ns ih =>
      have hn : (Nat.toDigits 10 n).length ≤ 3 :=
        (Nat.length_toDigits_le_iff (by decide) (by decide)).2
          (Nat.lt_of_le_of_lt (h n List.mem_cons_self) (by decide))
      have htail := ih fun m hm => h m (List.mem_cons_of_mem n hm)
      have hcount : digitCount (n :: ns) = (Nat.toDigits 10 n).length + digitCount ns := rfl
      rw [hcount, List.length_cons]
      omega

/-- A list of numbers has its digits, and a comma between two numbers. -/
theorem length_numberList {n : ℕ} {ns : List ℕ} :
    (numberList (n :: ns)).length = digitCount (n :: ns) + ns.length := by
  induction ns generalizing n with
  | nil => rfl
  | cons m ns ih =>
      have hcount : digitCount (n :: m :: ns) =
          (Nat.toDigits 10 n).length + digitCount (m :: ns) := rfl
      rw [numberList, List.length_append, List.length_cons, ih, hcount, List.length_cons]
      omega

end ClusterFtpd
