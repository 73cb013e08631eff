import ClusterFtpd.CommandLine

/-!
# Which words are commands

`parseWord` is the cascade of `switch` statements of `ParseLine`, one function for each letter it
looks at.  A missing `break` is the `<|>` that goes on to the next case.  The words it accepts are
the `spellings` of each command, which `commandWord` lists.

`parsedByName_iff` says for which words the result is the one the name of the command asks for:
for all but five, which the cases behind `X` get wrong.
-/

namespace ClusterFtpd

/-! ### The cascade -/

/-- `if (!strcmp(rest, word)) return cmd`. -/
def accept (rest : Text) (word : String) (cmd : Cmd) : Option Cmd :=
  if rest = word.toList then some cmd else none

/-- `case 'A'`. -/
def parseA : Text → Option Cmd
  | 'B' :: rest => accept rest "OR" .abor
  | 'L' :: rest => accept rest "LO" .allo
  | 'P' :: rest => accept rest "PE" .appe
  | _ => none

/-- `case 'C'`. -/
def parseC : Text → Option Cmd
  | 'D' :: rest => accept rest "UP" .cdup
  | 'L' :: rest => accept rest "NT" .clnt
  | 'W' :: rest => accept rest "D" .cwd
  | _ => none

/-- `case 'M'`. -/
def parseM : Text → Option Cmd
  | 'D' :: rest => accept rest "TM" .mdtm
  | 'K' :: rest => accept rest "D" .mkd
  | 'O' :: rest => accept rest "DE" .mode
  | _ => none

/-- `case 'N'`. -/
def parseN : Text → Option Cmd
  | 'L' :: rest => accept rest "ST" .nlst
  | 'O' :: rest => accept rest "OP" .noop
  | _ => none

/-- `case 'P'`.  Behind `PAS` single characters are compared, the last with the end of the word. -/
def parseP : Text → Option Cmd
  | 'A' :: 'S' :: 'V' :: rest => accept rest "" .pasv
  | 'A' :: 'S' :: 'S' :: rest => accept rest "" .pass
  | 'O' :: rest => accept rest "RT" .port
  | 'W' :: rest => accept rest "D" .pwd
  | 'R' :: rest => accept rest "ET" .pret
  | _ => none

/-- `case 'R'`. -/
def parseR : Text → Option Cmd
  | 'E' :: 'S' :: rest => accept rest "T" .rest
  | 'E' :: 'T' :: rest => accept rest "R" .retr
  | 'M' :: rest => accept rest "D" .rmd
  | 'N' :: 'F' :: rest => accept rest "R" .rnfr
  | 'N' :: 'T' :: rest => accept rest "O" .rnto
  | _ => none

/-- The single characters behind `STO`. -/
def parseSTO : Text → Option Cmd
  | 'R' :: rest => accept rest "" .stor
  | 'U' :: rest => accept rest "" .stou
  | _ => none

/-- `case 'S'`.  The case `STO` has no `break` and goes on to that of `STR`. -/
def parseS : Text → Option Cmd
  | 'I' :: 'T' :: rest => accept rest "E" .site
  | 'I' :: 'Z' :: rest => accept rest "E" .size
  | 'T' :: 'A' :: rest => accept rest "T" .stat
  | 'T' :: 'O' :: rest => parseSTO rest <|> accept rest "U" .stru
  | 'T' :: 'R' :: rest => accept rest "U" .stru
  | 'Y' :: rest => accept rest "ST" .syst
  | _ => none

/-- `case 'X'`.  The cases `XM` and `XR` have no `break`. -/
def parseX : Text → Option Cmd
  | 'C' :: 'U' :: rest => accept rest "P" .xcup
  | 'C' :: 'W' :: rest => accept rest "D" .xcwd
  | 'M' :: rest => accept rest "KD" .xmkd <|> accept rest "MD" .xrmd <|> accept rest "PW" .xpwd
  | 'R' :: rest => accept rest "MD" .xrmd <|> accept rest "PW" .xpwd
  | 'P' :: rest => accept rest "PW" .xpwd
  | _ => none

/-- `switch (sCmdBuffer[0])`. -/
def parseWord : Text → Option Cmd
  | 'A' :: rest => parseA rest
  | 'C' :: rest => parseC rest
  | 'D' :: rest => accept rest "ELE" .dele
  | 'F' :: rest => accept rest "EAT" .feat
  | 'H' :: rest => accept rest "ELP" .help
  | 'L' :: rest => accept rest "IST" .list
  | 'M' :: rest => parseM rest
  | 'N' :: rest => parseN rest
  | 'O' :: rest => accept rest "PTS" .opts
  | 'P' :: rest => parseP rest
  | 'Q' :: rest => accept rest "UIT" .quit
  | 'R' :: rest => parseR rest
  | 'S' :: rest => parseS rest
  | 'T' :: rest => accept rest "YPE" .type
  | 'U' :: rest => accept rest "SER" .user
  | 'X' :: rest => parseX rest
  | _ => none

/-! ### The names of the commands -/

/-- The word behind `CMD_` in the enumeration. -/
def Cmd.name : Cmd → String
  | .quit => "QUIT"
  | .user => "USER"
  | .pass => "PASS"
  | .noop => "NOOP"
  | .allo => "ALLO"
  | .site => "SITE"
  | .help => "HELP"
  | .syst => "SYST"
  | .stru => "STRU"
  | .mode => "MODE"
  | .type => "TYPE"
  | .clnt => "CLNT"
  | .port => "PORT"
  | .pasv => "PASV"
  | .list => "LIST"
  | .nlst => "NLST"
  | .cwd => "CWD"
  | .xcwd => "XCWD"
  | .feat => "FEAT"
  | .mdtm => "MDTM"
  | .pwd => "PWD"
  | .xpwd => "XPWD"
  | .cdup => "CDUP"
  | .xcup => "XCUP"
  | .stat => "STAT"
  | .abor => "ABOR"
  | .rest => "REST"
  | .retr => "RETR"
  | .stor => "STOR"
  | .appe => "APPE"
  | .stou => "STOU"
  | .size => "SIZE"
  | .dele => "DELE"
  | .rnfr => "RNFR"
  | .rnto => "RNTO"
  | .mkd => "MKD"
  | .xmkd => "XMKD"
  | .rmd => "RMD"
  | .xrmd => "XRMD"
  | .opts => "OPTS"
  | .pret => "PRET"

/-- The words that are recognised, with the command they are taken for. -/
def words : List (String × Cmd) :=
  [("ABOR", .abor), ("ALLO", .allo), ("APPE", .appe), ("CDUP", .cdup), ("CLNT", .clnt),
    ("CWD", .cwd), ("DELE", .dele), ("FEAT", .feat), ("HELP", .help), ("LIST", .list),
    ("MDTM", .mdtm), ("MKD", .mkd), ("MODE", .mode), ("NLST", .nlst), ("NOOP", .noop),
    ("OPTS", .opts), ("PASV", .pasv), ("PASS", .pass), ("PORT", .port), ("PWD", .pwd),
    ("PRET", .pret), ("QUIT", .quit), ("REST", .rest), ("RETR", .retr), ("RMD", .rmd),
    ("RNFR", .rnfr), ("RNTO", .rnto), ("SITE", .site), ("SIZE", .size), ("STAT", .stat),
    ("STOR", .stor), ("STOU", .stou), ("STRU", .stru), ("SYST", .syst), ("TYPE", .type),
    ("USER", .user), ("XCUP", .xcup), ("XCWD", .xcwd), ("XMKD", .xmkd), ("XMMD", .xrmd),
    ("XMPW", .xpwd), ("XRMD", .xrmd), ("XRPW", .xpwd), ("XPPW", .xpwd)]

/-- The words that the cases behind `X` get wrong: four that name no command and are taken for
one, and the name of a command that is not recognised. -/
def misspelt : List String := ["XMMD", "XMPW", "XRPW", "XPPW", "XPWD"]

/-- A word of the table. -/
def Listed (word : Text) (c : Cmd) : Prop := ∃ s, s.toList = word ∧ (s, c) ∈ words

/-! ### The cascade and the table -/

theorem accept_sound {rest : Text} {word : String} {cmd c : Cmd}
    (h : accept rest word cmd = some c) : rest = word.toList ∧ cmd = c := by
  unfold accept at h
  split at h
  · exact ⟨‹_›, Option.some.inj h⟩
  · cases h

theorem orElse_sound {a b : Option Cmd} {c : Cmd} (h : (a <|> b) = some c) :
    a = some c ∨ b = some c := by
  cases a with
  | none => exact .inr h
  | some _ => exact .inl h

/-- The first characters of a word, and the rest of it that is accepted. -/
theorem listed_of_accept (front : Text) {rest : Text} {word : String} {cmd c : Cmd} (s : String)
    (h : accept rest word cmd = some c) (hs : s.toList = front ++ word.toList)
    (hmem : (s, cmd) ∈ words) : Listed (front ++ rest) c := by
  have hrest : rest = word.toList := (accept_sound h).1
  have hc : cmd = c := (accept_sound h).2
  subst hc
  exact ⟨s, hs.trans (congrArg _ hrest.symm), hmem⟩

theorem parseA_sound {rest : Text} {c : Cmd} (h : parseA rest = some c) :
    Listed ('A' :: rest) c := by
  unfold parseA at h
  split at h
  · exact listed_of_accept ['A', 'B'] "ABOR" h rfl (by decide)
  · exact listed_of_accept ['A', 'L'] "ALLO" h rfl (by decide)
  · exact listed_of_accept ['A', 'P'] "APPE" h rfl (by decide)
  · cases h

theorem parseC_sound {rest : Text} {c : Cmd} (h : parseC rest = some c) :
    Listed ('C' :: rest) c := by
  unfold parseC at h
  split at h
  · exact listed_of_accept ['C', 'D'] "CDUP" h rfl (by decide)
  · exact listed_of_accept ['C', 'L'] "CLNT" h rfl (by decide)
  · exact listed_of_accept ['C', 'W'] "CWD" h rfl (by decide)
  · cases h

theorem parseM_sound {rest : Text} {c : Cmd} (h : parseM rest = some c) :
    Listed ('M' :: rest) c := by
  unfold parseM at h
  split at h
  · exact listed_of_accept ['M', 'D'] "MDTM" h rfl (by decide)
  · exact listed_of_accept ['M', 'K'] "MKD" h rfl (by decide)
  · exact listed_of_accept ['M', 'O'] "MODE" h rfl (by decide)
  · cases h

theorem parseN_sound {rest : Text} {c : Cmd} (h : parseN rest = some c) :
    Listed ('N' :: rest) c := by
  unfold parseN at h
  split at h
  · exact listed_of_accept ['N', 'L'] "NLST" h rfl (by decide)
  · exact listed_of_accept ['N', 'O'] "NOOP" h rfl (by decide)
  · cases h

theorem parseP_sound {rest : Text} {c : Cmd} (h : parseP rest = some c) :
    Listed ('P' :: rest) c := by
  unfold parseP at h
  split at h
  · exact listed_of_accept ['P', 'A', 'S', 'V'] "PASV" h rfl (by decide)
  · exact listed_of_accept ['P', 'A', 'S', 'S'] "PASS" h rfl (by decide)
  · exact listed_of_accept ['P', 'O'] "PORT" h rfl (by decide)
  · exact listed_of_accept ['P', 'W'] "PWD" h rfl (by decide)
  · exact listed_of_accept ['P', 'R'] "PRET" h rfl (by decide)
  · cases h

theorem parseR_sound {rest : Text} {c : Cmd} (h : parseR rest = some c) :
    Listed ('R' :: rest) c := by
  unfold parseR at h
  split at h
  · exact listed_of_accept ['R', 'E', 'S'] "REST" h rfl (by decide)
  · exact listed_of_accept ['R', 'E', 'T'] "RETR" h rfl (by decide)
  · exact listed_of_accept ['R', 'M'] "RMD" h rfl (by decide)
  · exact listed_of_accept ['R', 'N', 'F'] "RNFR" h rfl (by decide)
  · exact listed_of_accept ['R', 'N', 'T'] "RNTO" h rfl (by decide)
  · cases h

theorem parseSTO_sound {rest : Text} {c : Cmd} (h : parseSTO rest = some c) :
    Listed ('S' :: 'T' :: 'O' :: rest) c := by
  unfold parseSTO at h
  split at h
  · exact listed_of_accept ['S', 'T', 'O', 'R'] "STOR" h rfl (by decide)
  · exact listed_of_accept ['S', 'T', 'O', 'U'] "STOU" h rfl (by decide)
  · cases h

theorem parseS_sound {rest : Text} {c : Cmd} (h : parseS rest = some c) :
    Listed ('S' :: rest) c := by
  unfold parseS at h
  split at h
  · exact listed_of_accept ['S', 'I', 'T'] "SITE" h rfl (by decide)
  · exact listed_of_accept ['S', 'I', 'Z'] "SIZE" h rfl (by decide)
  · exact listed_of_accept ['S', 'T', 'A'] "STAT" h rfl (by decide)
  · -- Behind `STO` the case of `STR` accepts `STOU`, which its own case has taken already.
    rename_i rest
    cases orElse_sound h with
    | inl hown => exact parseSTO_sound hown
    | inr hnext =>
        have hrest : rest = ['U'] := (accept_sound hnext).1
        subst hrest
        cases h
        exact ⟨"STOU", rfl, by decide⟩
  · exact listed_of_accept ['S', 'T', 'R'] "STRU" h rfl (by decide)
  · exact listed_of_accept ['S', 'Y'] "SYST" h rfl (by decide)
  · cases h

theorem parseX_sound {rest : Text} {c : Cmd} (h : parseX rest = some c) :
    Listed ('X' :: rest) c := by
  unfold parseX at h
  split at h
  · exact listed_of_accept ['X', 'C', 'U'] "XCUP" h rfl (by decide)
  · exact listed_of_accept ['X', 'C', 'W'] "XCWD" h rfl (by decide)
  · cases orElse_sound h with
    | inl hown => exact listed_of_accept ['X', 'M'] "XMKD" hown rfl (by decide)
    | inr hnext =>
        cases orElse_sound hnext with
        | inl hnext => exact listed_of_accept ['X', 'M'] "XMMD" hnext rfl (by decide)
        | inr hlast => exact listed_of_accept ['X', 'M'] "XMPW" hlast rfl (by decide)
  · cases orElse_sound h with
    | inl hown => exact listed_of_accept ['X', 'R'] "XRMD" hown rfl (by decide)
    | inr hnext => exact listed_of_accept ['X', 'R'] "XRPW" hnext rfl (by decide)
  · exact listed_of_accept ['X', 'P'] "XPPW" h rfl (by decide)
  · cases h

theorem parseWord_sound {word : Text} {c : Cmd} (h : parseWord word = some c) : Listed word c := by
  unfold parseWord at h
  split at h
  · exact parseA_sound h
  · exact parseC_sound h
  · exact listed_of_accept ['D'] "DELE" h rfl (by decide)
  · exact listed_of_accept ['F'] "FEAT" h rfl (by decide)
  · exact listed_of_accept ['H'] "HELP" h rfl (by decide)
  · exact listed_of_accept ['L'] "LIST" h rfl (by decide)
  · exact parseM_sound h
  · exact parseN_sound h
  · exact listed_of_accept ['O'] "OPTS" h rfl (by decide)
  · exact parseP_sound h
  · exact listed_of_accept ['Q'] "QUIT" h rfl (by decide)
  · exact parseR_sound h
  · exact parseS_sound h
  · exact listed_of_accept ['T'] "TYPE" h rfl (by decide)
  · exact listed_of_accept ['U'] "USER" h rfl (by decide)
  · exact parseX_sound h
  · cases h

theorem parseWord_complete : ∀ p ∈ words, parseWord p.1.toList = some p.2 := by
  decide

/-- The cascade accepts the words of the table. -/
theorem parseWord_eq_some {word : Text} {c : Cmd} : parseWord word = some c ↔ Listed word c := by
  constructor
  · exact parseWord_sound
  · intro h
    obtain ⟨s, hs, hmem⟩ := h
    rw [← hs]
    exact parseWord_complete (s, c) hmem

theorem toList_of_ofList {w : Text} {s : String} (h : String.ofList w = s) : s.toList = w := by
  rw [← h, String.toList_ofList]

theorem commandWord_sound {word : Text} {c : Cmd} (h : commandWord word = some c) :
    Listed word c := by
  unfold commandWord at h
  split at h
  case h_45 => cases h
  all_goals
    cases h
    exact ⟨_, toList_of_ofList ‹_›, by decide⟩

theorem commandWord_complete : ∀ p ∈ words, commandWord p.1.toList = some p.2 := by
  decide

/-- **The list of words is what the cascade accepts.** -/
theorem commandWord_eq (word : Text) : commandWord word = parseWord word := by
  apply Option.ext
  intro c
  rw [parseWord_eq_some]
  constructor
  · exact commandWord_sound
  · intro h
    obtain ⟨s, hs, hmem⟩ := h
    rw [← hs]
    exact commandWord_complete (s, c) hmem

/-! ### The result of `ParseLine` -/

/-- The word of a line: what stands before the first blank, in upper case. -/
def lineWord (line : Text) : Text := (line.takeWhile fun c => c ≠ ' ').map toupper

/-- `ParseLine`: what the cascade makes of the word, and the text behind the first blank. -/
def parseCommand (line : Text) : Option Cmd × Option Text :=
  (parseWord (lineWord line),
    match line.dropWhile fun c => c ≠ ' ' with
    | [] => none
    | _ :: arg => some arg)

theorem parseLine_eq (line : Text) : parseLine line = parseCommand line :=
  congrArg (Prod.mk · (parseLine line).2) (commandWord_eq (lineWord line))

/-- The result that the names of the commands ask for. -/
structure ParsedByName (line : Text) : Prop where
  command : ∀ c : Cmd, (parseCommand line).1 = some c ↔ lineWord line = c.name.toList
  other : (parseCommand line).1 = none ↔ ∀ c : Cmd, lineWord line ≠ c.name.toList
  argument : ∀ arg, (parseCommand line).2 = some arg ↔
    ∃ front, ' ' ∉ front ∧ line = front ++ ' ' :: arg
  noArgument : (parseCommand line).2 = none ↔ ' ' ∉ line

/-- A text is cut at its first blank in one way. -/
theorem argument_iff (line arg : Text) :
    (parseCommand line).2 = some arg ↔ ∃ front, ' ' ∉ front ∧ line = front ++ ' ' :: arg := by
  induction line with
  | nil =>
      constructor
      · intro h
        cases h
      · intro h
        obtain ⟨front, _, hline⟩ := h
        exact absurd hline.symm (List.append_ne_nil_of_right_ne_nil front (List.cons_ne_nil _ _))
  | cons c line ih =>
      by_cases hc : c = ' '
      · subst hc
        constructor
        · intro h
          exact ⟨[], List.not_mem_nil, congrArg _ (Option.some.inj h)⟩
        · intro h
          obtain ⟨front, hfront, hline⟩ := h
          cases front with
          | nil => exact congrArg some (List.cons.inj hline).2
          | cons d front => exact absurd (List.cons.inj hline).1 (List.ne_of_not_mem_cons hfront)
      · have hskip : (parseCommand (c :: line)).2 = (parseCommand line).2 := by
          simp [parseCommand, hc]
        rw [hskip, ih]
        constructor
        · intro h
          obtain ⟨front, hfront, hline⟩ := h
          exact ⟨c :: front, List.not_mem_cons_of_ne_of_not_mem (Ne.symm hc) hfront, congrArg _ hline⟩
        · intro h
          obtain ⟨front, hfront, hline⟩ := h
          cases front with
          | nil => exact absurd (List.cons.inj hline).1 hc
          | cons d front =>
              exact ⟨front, List.not_mem_of_not_mem_cons hfront, (List.cons.inj hline).2⟩

theorem noArgument_iff (line : Text) : (parseCommand line).2 = none ↔ ' ' ∉ line := by
  constructor
  · intro h hmem
    obtain ⟨front, arg, hline, hfront⟩ := List.eq_append_cons_of_mem hmem
    have harg : (parseCommand line).2 = some arg := (argument_iff line arg).2 ⟨front, hfront, hline⟩
    rw [h] at harg
    cases harg
  · intro h
    cases harg : (parseCommand line).2 with
    | none => rfl
    | some arg =>
        obtain ⟨front, _, hline⟩ := (argument_iff line arg).1 harg
        exact absurd (hline ▸ List.mem_append_right _ List.mem_cons_self) h

/-- A word of the table is the name of its command, or one of the five. -/
theorem words_named : ∀ p ∈ words, p.1 = p.2.name ∨ p.1 ∈ misspelt := by
  decide

/-- The name of a command stands in the table for it, or is one of the five words. -/
theorem name_listed (c : Cmd) : (c.name, c) ∈ words ∨ c.name ∈ misspelt := by
  cases c <;> decide

/-- The five words are not taken for the command they name. -/
theorem misspelt_wrong : ∀ s ∈ misspelt,
    ¬ ∀ c : Cmd, parseWord s.toList = some c ↔ s.toList = c.name.toList := by
  intro s hs h
  have hwrong : ∀ s ∈ misspelt, s = Cmd.xpwd.name ∧ parseWord s.toList = none ∨
      ∃ p ∈ words, p.1 = s ∧ s ≠ p.2.name := by decide
  cases hwrong s hs with
  | inl hunknown =>
      have hfound : parseWord s.toList = some .xpwd := (h .xpwd).2 (congrArg _ hunknown.1)
      rw [hunknown.2] at hfound
      cases hfound
  | inr htaken =>
      obtain ⟨p, hp, hs, hname⟩ := htaken
      subst hs
      exact hname (String.toList_injective ((h p.2).1 (parseWord_complete p hp)))

/-- A word other than the five is taken for the command it names, and for no other. -/
theorem parseWord_named {word : Text} (h : ∀ s ∈ misspelt, s.toList ≠ word) (c : Cmd) :
    parseWord word = some c ↔ word = c.name.toList := by
  rw [parseWord_eq_some]
  constructor
  · intro hlisted
    obtain ⟨s, hs, hmem⟩ := hlisted
    cases words_named (s, c) hmem with
    | inl hname => exact hs.symm.trans (congrArg _ hname)
    | inr hwrong => exact absurd hs (h s hwrong)
  · intro hword
    cases name_listed c with
    | inl hmem => exact ⟨c.name, hword.symm, hmem⟩
    | inr hwrong => exact absurd hword.symm (h c.name hwrong)

/-- **`ParseLine` knows the commands by their names**, unless the word of the line is one of the
five. -/
theorem parsedByName_iff (line : Text) :
    ParsedByName line ↔ ∀ s ∈ misspelt, s.toList ≠ lineWord line := by
  constructor
  · intro h s hs hword
    apply misspelt_wrong s hs
    rw [hword]
    exact h.command
  · intro h
    refine ⟨parseWord_named h, ?_, argument_iff line, noArgument_iff line⟩
    rw [Option.eq_none_iff_forall_ne_some]
    exact forall_congr' fun c => not_congr (parseWord_named h c)

/-- `XPWD` is not recognised, and `XMMD` removes a directory. -/
theorem xpwd_unknown : ¬ ParsedByName "XPWD".toList ∧
    (parseCommand "XPWD".toList).1 = none ∧ (parseCommand "XMMD a".toList).1 = some .xrmd := by
  refine ⟨?_, by decide, by decide⟩
  intro h
  exact misspelt_wrong "XPWD" (by decide) h.command

end ClusterFtpd
