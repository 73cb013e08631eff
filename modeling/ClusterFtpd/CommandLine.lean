import ClusterFtpd.Vfs

/-!
# Command lines and their arguments

`parseLine` separates the command word from its argument and recognises the word; `CMD_NONE` is
`none`.  The rest are the readings that the commands make of their arguments: `atoi`, the `%u`
list of `PORT`, the two words of `PRET` and the options of a listing.
-/

namespace ClusterFtpd

open MachineInt

/-- The commands. -/
inductive Cmd where
  | quit | user | pass | noop | allo | site | help | syst | stru | mode | type | clnt | port | pasv
  | list | nlst | cwd | xcwd | feat | mdtm | pwd | xpwd | cdup | xcup | stat | abor | rest | retr
  | stor | appe | stou | size | dele | rnfr | rnto | mkd | xmkd | rmd | xrmd | opts | pret
  deriving DecidableEq

/-- `toupper` of the C locale. -/
def toupper (c : Char) : Char :=
  if 'a' ≤ c ∧ c ≤ 'z' then Char.ofNat (c.toNat - 32) else c

/-- The words the cascade of `switch` statements accepts, in upper case.  The cases `M`, `R` and
`P` behind `X` have no `break`, so a word that fails one of them goes on to the next. -/
def commandWord (word : Text) : Option Cmd :=
  match String.ofList word with
  | "ABOR" => some .abor
  | "ALLO" => some .allo
  | "APPE" => some .appe
  | "CDUP" => some .cdup
  | "CLNT" => some .clnt
  | "CWD" => some .cwd
  | "DELE" => some .dele
  | "FEAT" => some .feat
  | "HELP" => some .help
  | "LIST" => some .list
  | "MDTM" => some .mdtm
  | "MKD" => some .mkd
  | "MODE" => some .mode
  | "NLST" => some .nlst
  | "NOOP" => some .noop
  | "OPTS" => some .opts
  | "PASV" => some .pasv
  | "PASS" => some .pass
  | "PORT" => some .port
  | "PWD" => some .pwd
  | "PRET" => some .pret
  | "QUIT" => some .quit
  | "REST" => some .rest
  | "RETR" => some .retr
  | "RMD" => some .rmd
  | "RNFR" => some .rnfr
  | "RNTO" => some .rnto
  | "SITE" => some .site
  | "SIZE" => some .size
  | "STAT" => some .stat
  | "STOR" => some .stor
  | "STOU" => some .stou
  | "STRU" => some .stru
  | "SYST" => some .syst
  | "TYPE" => some .type
  | "USER" => some .user
  | "XCUP" => some .xcup
  | "XCWD" => some .xcwd
  | "XMKD" => some .xmkd
  | "XMMD" => some .xrmd
  | "XMPW" => some .xpwd
  | "XRMD" => some .xrmd
  | "XRPW" => some .xpwd
  | "XPPW" => some .xpwd
  | _ => none

/-- `ParseLine`: the command, and the text behind the first blank. -/
def parseLine (line : Text) : Option Cmd × Option Text :=
  (commandWord ((line.takeWhile fun c => c ≠ ' ').map toupper),
    match line.dropWhile fun c => c ≠ ' ' with
    | [] => none
    | _ :: arg => some arg)

/-! ### Numbers -/

/-- `isspace` of the C locale. -/
def isspace (c : Char) : Bool := c = ' ' ∨ ('\t' ≤ c ∧ c ≤ '\r')

/-- The value of the digits a text starts with. -/
def digitsValue (s : Text) : ℕ :=
  (s.takeWhile Char.isDigit).foldl (fun n c => 10 * n + (c.toNat - '0'.toNat)) 0

/-- Blanks and a sign in front of digits: whether the number is negative, and the digits. -/
def signedDigits (s : Text) : Bool × Text :=
  match s.dropWhile isspace with
  | '-' :: ds => (true, ds)
  | '+' :: ds => (false, ds)
  | ds => (false, ds)

/-- `atoi`: the number read as a `long`, which stops at its bounds, and narrowed to an `int`. -/
def atoiText (s : Text) : ℤ :=
  let (negative, ds) := signedDigits s
  let v : ℤ := digitsValue ds
  int32 (if negative then max (-v) (-9223372036854775808) else min v 9223372036854775807)

/-- `%u` of `sscanf`: the value as an `unsigned int`, and the text behind the digits. -/
def scanUnsigned (s : Text) : Option (ℕ × Text) :=
  let (negative, ds) := signedDigits s
  if (ds.takeWhile Char.isDigit).isEmpty then none
  else
    let v := digitsValue ds
    let n : ℤ :=
      if 18446744073709551615 < v then 18446744073709551615 else if negative then -v else v
    some (u32 n, ds.dropWhile Char.isDigit)

/-- `n` numbers separated by commas. -/
def scanList : ℕ → Text → Option (List ℕ)
  | 0, _ => some []
  | 1, s => (scanUnsigned s).map fun r => [r.1]
  | n + 2, s =>
      match scanUnsigned s with
      | some (v, ',' :: rest) => (scanList (n + 1) rest).map (v :: ·)
      | _ => none

/-- The argument of `PORT`: the address as `inet_addr` gives it, and the port. -/
def scanPort (s : Text) : Option (ℕ × ℕ) :=
  match scanList 6 s with
  | some [iIp1, iIp2, iIp3, iIp4, iPort1, iPort2] =>
      if iIp1 ≤ 255 ∧ iIp2 ≤ 255 ∧ iIp3 ≤ 255 ∧ iIp4 ≤ 255 ∧ iPort1 ≤ 255 ∧ iPort2 ≤ 255 ∧
          iIp1 ||| iIp2 ||| iIp3 ||| iIp4 ≠ 0 ∧ iPort1 ||| iPort2 ≠ 0 then
        some (iIp1 + 256 * iIp2 + 65536 * iIp3 + 16777216 * iIp4, iPort1 * 256 + iPort2)
      else none
  | _ => none

/-! ### Words -/

/-- `%s` of `sscanf`: a word, and the text behind it. -/
def scanWord (s : Text) : Text × Text :=
  let s := s.dropWhile isspace
  (s.takeWhile fun c => !isspace c, s.dropWhile fun c => !isspace c)

/-- The options of a listing. -/
structure ListOptions where
  opt_a : Bool := false
  opt_d : Bool := false
  opt_F : Bool := false
  opt_l : Bool := false
  deriving DecidableEq

/-- One option letter; other letters and digits are passed over. -/
def ListOptions.letter (o : ListOptions) : Char → ListOptions
  | 'a' => { o with opt_a := true }
  | 'd' => { o with opt_d := true }
  | 'F' => { o with opt_F := true }
  | 'l' => { o with opt_l := true }
  | _ => o

/-- Where the option loop stands: before a `-`, in the letters of an option, or in the blanks
behind it. -/
inductive ListScan where
  | dash
  | letters
  | blanks
  deriving DecidableEq

/-- The option loop of `LIST`: the options and the rest of the argument. -/
def scanOptions : ListScan → ListOptions → Text → ListOptions × Text
  | _, o, [] => (o, [])
  | m, o, c :: s =>
      if m = .letters ∧ c.isAlphanum then scanOptions .letters (o.letter c) s
      else if m ≠ .dash ∧ isspace c then scanOptions .blanks o s
      else if c = '-' then scanOptions .letters o s
      else (o, c :: s)

end ClusterFtpd
