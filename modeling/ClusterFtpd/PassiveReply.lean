import ClusterFtpd.Decimal
import ClusterFtpd.Lib.CString
import ClusterFtpd.Shell

/-!
# The reply to `PASV`

The metaserver and the slaves print the same text, the metaserver into a buffer for any reply and
the slaves into one of 50 bytes.  `scanPort` reads the address and the port back from it.

`passiveRight_iff` says that all of this is right when the six numbers have at most 16 digits: the
text of 51 characters that 18 digits make does not fit.
-/

namespace ClusterFtpd

/-- An address other than `0.0.0.0`, in network order, and a port. -/
structure Endpoint where
  ip : ℕ
  port : ℕ
  ip_lt : ip < 4294967296
  ip_pos : 0 < ip
  port_lt : port < 65536
  port_pos : 0 < port

/-! ### The two encoders -/

/-- `CFTPSERVER_REPLY_MAX_LEN`. -/
def CFTPSERVER_REPLY_MAX_LEN : ℕ := MAX_PATH + 64

/-- `ntohl` on a little-endian machine. -/
def ntohl (x : ℕ) : ℕ :=
  x % 256 * 16777216 + x / 256 % 256 * 65536 + x / 65536 % 256 * 256 + x / 16777216 % 256

/-- The arguments of the format: the address in host order byte by byte, and the port. -/
def passiveFields (ulIp port : ℕ) : List ℕ :=
  [ulIp >>> 24 &&& 255, ulIp >>> 16 &&& 255, ulIp >>> 8 &&& 255, ulIp &&& 255,
    port / 256, port % 256]

/-- `"227 Entering Passive Mode (%lu,%lu,%lu,%lu,%u,%u)"`. -/
def passiveText (args : Text) : Text := "227 Entering Passive Mode (".toList ++ (args ++ [')'])

/-- The string that a buffer holds. -/
def stringIn (buffer : List Char) : Text := buffer.takeWhile fun c => c ≠ '\x00'

/-- `sprintf`, which stops for nothing. -/
def sprintf (buffer : List Char) (text : Text) : Option (List Char) :=
  CString.copy buffer 0 (text ++ ['\x00'])

/-- `vsnprintf` with room for `n` characters, the terminator included. -/
def vsnprintf (buffer : List Char) (n : ℕ) (text : Text) : Option (List Char) :=
  CString.copy buffer 0 (text.take (n - 1) ++ ['\x00'])

/-- The reply of `InitPasvDataConnection`; `buffer` is `char buffer[50]` before it. -/
def slavePassive (buffer : List Char) (server_ip server_port : ℕ) : Option Text :=
  let ulIp := ntohl server_ip
  (sprintf buffer (passiveText (numberList (passiveFields ulIp server_port)))).map stringIn

/-- The reply of `PASV` in the metaserver, through `SendReply2`. -/
def metaPassive (pszBuffer : List Char) (ulServerIP usDataPort : ℕ) : Option Text :=
  let ulIp := ntohl ulServerIP
  (vsnprintf pszBuffer (CFTPSERVER_REPLY_MAX_LEN - 2)
    (passiveText (numberList (passiveFields ulIp usDataPort)))).map stringIn

/-- The six numbers of a reply. -/
def Endpoint.fields (e : Endpoint) : List ℕ := passiveFields (ntohl e.ip) e.port

/-- Both replies have the same text, which fits its buffer, and `PORT` reads the address and the
port from what stands in the brackets. -/
structure PassiveRight (e : Endpoint) (args : Text) : Prop where
  slave : ∀ buffer : List Char, buffer.length = 50 →
    slavePassive buffer e.ip e.port = some (passiveText args)
  metaserver : ∀ buffer : List Char, buffer.length = CFTPSERVER_REPLY_MAX_LEN →
    metaPassive buffer e.ip e.port = some (passiveText args)
  decoded : scanPort args = some (e.ip, e.port)

/-! ### The fields -/

/-- The bytes of a number that is put together from four. -/
theorem bytes_of_sum {a b c d : ℕ} (ha : a < 256) (hb : b < 256) (hc : c < 256) (hd : d < 256) :
    let n := a * 16777216 + b * 65536 + c * 256 + d
    n / 16777216 % 256 = a ∧ n / 65536 % 256 = b ∧ n / 256 % 256 = c ∧ n % 256 = d := by
  intro n
  omega

/-- The bytes of the address in the order of the network, and those of the port. -/
theorem passiveFields_eq (ip port : ℕ) : passiveFields (ntohl ip) port =
    [ip % 256, ip / 256 % 256, ip / 65536 % 256, ip / 16777216 % 256, port / 256, port % 256] := by
  have hbyte : ∀ x, x &&& 255 = x % 256 := fun x => Nat.and_two_pow_sub_one_eq_mod x 8
  have hlt : ∀ x, x % 256 < 256 := fun x => Nat.mod_lt x (by decide)
  obtain ⟨h1, h2, h3, h4⟩ := bytes_of_sum (hlt ip) (hlt (ip / 256)) (hlt (ip / 65536))
    (hlt (ip / 16777216))
  simp only [passiveFields, hbyte, Nat.shiftRight_eq_div_pow]
  rw [show ntohl ip / 2 ^ 24 % 256 = ip % 256 from h1,
    show ntohl ip / 2 ^ 16 % 256 = ip / 256 % 256 from h2,
    show ntohl ip / 2 ^ 8 % 256 = ip / 65536 % 256 from h3,
    show ntohl ip % 256 = ip / 16777216 % 256 from h4]

theorem Endpoint.fields_eq (e : Endpoint) : e.fields =
    [e.ip % 256, e.ip / 256 % 256, e.ip / 65536 % 256, e.ip / 16777216 % 256,
      e.port / 256, e.port % 256] :=
  passiveFields_eq e.ip e.port

theorem Endpoint.field_le (e : Endpoint) : ∀ n ∈ e.fields, n ≤ 255 := by
  intro n hn
  have hport := e.port_lt
  rw [e.fields_eq] at hn
  simp only [List.mem_cons, List.not_mem_nil, or_false] at hn
  omega

/-- **Decoding**: `PORT` reads the endpoint from its six numbers. -/
theorem Endpoint.scanPort_fields (e : Endpoint) :
    scanPort (numberList e.fields) = some (e.ip, e.port) := by
  have hscan : scanList 6 (numberList e.fields) = some e.fields :=
    scanList_numberList fun n hn => (e.field_le n hn).trans_lt (by decide)
  rw [e.fields_eq] at hscan ⊢
  have hip := e.ip_lt
  have hpos := e.ip_pos
  have hport := e.port_lt
  have hport_pos := e.port_pos
  have hbounds : e.ip % 256 ≤ 255 ∧ e.ip / 256 % 256 ≤ 255 ∧ e.ip / 65536 % 256 ≤ 255 ∧
      e.ip / 16777216 % 256 ≤ 255 ∧ e.port / 256 ≤ 255 ∧ e.port % 256 ≤ 255 := by omega
  have haddress : e.ip % 256 ||| e.ip / 256 % 256 ||| e.ip / 65536 % 256 |||
      e.ip / 16777216 % 256 ≠ 0 := by
    simp only [ne_eq, Nat.or_eq_zero_iff]
    omega
  have hports : e.port / 256 ||| e.port % 256 ≠ 0 := by
    simp only [ne_eq, Nat.or_eq_zero_iff]
    omega
  unfold scanPort
  rw [hscan]
  show (if _ then _ else _) = _
  rw [if_pos ⟨hbounds.1, hbounds.2.1, hbounds.2.2.1, hbounds.2.2.2.1, hbounds.2.2.2.2.1,
    hbounds.2.2.2.2.2, haddress, hports⟩]
  congr 2 <;> omega

/-! ### The text -/

theorem notMem_numberList {ns : List ℕ} : '\x00' ∉ numberList ns := by
  have hdigits : ∀ n : ℕ, '\x00' ∉ Nat.toDigits 10 n := fun n hmem =>
    absurd (Nat.isDigit_of_mem_toDigits (by decide) (by decide) hmem) (by decide)
  induction ns with
  | nil => exact List.not_mem_nil
  | cons n ns ih =>
      cases ns with
      | nil => exact hdigits n
      | cons m ns =>
          rw [numberList, List.mem_append, List.mem_cons]
          intro h
          rcases h with h | h | h
          · exact hdigits n h
          · exact absurd h (by decide)
          · exact ih h

theorem notMem_passiveText {args : Text} (h : '\x00' ∉ args) : '\x00' ∉ passiveText args := by
  have hfront : "227 Entering Passive Mode (".toList.all (fun c => c ≠ '\x00') = true :=
    by decide +kernel
  unfold passiveText
  rw [List.mem_append, List.mem_append]
  intro hmem
  rcases hmem with hmem | hmem | hmem
  · exact of_decide_eq_true (List.all_eq_true.1 hfront _ hmem) rfl
  · exact h hmem
  · exact absurd hmem (by decide)

theorem length_passiveText (args : Text) : (passiveText args).length = args.length + 28 := by
  have hfront : "227 Entering Passive Mode (".toList.length = 27 := by decide +kernel
  unfold passiveText
  rw [List.length_append, List.length_append, hfront, List.length_singleton]
  omega

/-- A text that fits its buffer is the string in it afterwards. -/
theorem stringIn_copy {buffer : List Char} {text : Text} (hnul : '\x00' ∉ text)
    (h : text.length < buffer.length) :
    (CString.copy buffer 0 (text ++ ['\x00'])).map stringIn = some text := by
  have hfits : 0 + (text ++ ['\x00']).length ≤ buffer.length := by
    rw [List.length_append]
    show 0 + (text.length + 1) ≤ _
    omega
  have hstring : ∀ rest, stringIn (text ++ '\x00' :: rest) = text := by
    intro rest
    have hall : ∀ c ∈ text, (decide (c ≠ '\x00')) = true := fun c hc =>
      decide_eq_true fun heq => hnul (heq ▸ hc)
    rw [stringIn, List.takeWhile_append_of_pos hall]
    exact List.append_nil text
  rw [CString.copy, if_pos hfits, Option.map_some, List.take_zero, List.nil_append,
    List.append_assoc]
  exact congrArg some (hstring _)

/-- A text that does not fit is written past the end of the buffer. -/
theorem copy_eq_none {buffer : List Char} {text : Text} (h : buffer.length ≤ text.length) :
    CString.copy buffer 0 (text ++ ['\x00']) = none := by
  rw [CString.copy, if_neg]
  rw [List.length_append]
  show ¬ 0 + (text.length + 1) ≤ _
  omega

/-- The six numbers have at most 18 digits. -/
theorem Endpoint.digitCount_le (e : Endpoint) : digitCount e.fields ≤ 18 :=
  ClusterFtpd.digitCount_le e.field_le

theorem Endpoint.length_text (e : Endpoint) :
    (passiveText (numberList e.fields)).length = digitCount e.fields + 33 := by
  rw [length_passiveText, show e.fields = _ :: _ from rfl, length_numberList]
  rfl

/-- The metaserver has room for the longest text. -/
theorem Endpoint.metaPassive_eq (e : Endpoint) {buffer : List Char}
    (h : buffer.length = CFTPSERVER_REPLY_MAX_LEN) :
    metaPassive buffer e.ip e.port = some (passiveText (numberList e.fields)) := by
  have hlength := e.length_text
  have hdigits := e.digitCount_le
  have hsize : CFTPSERVER_REPLY_MAX_LEN = 4160 := rfl
  have htake : (passiveText (numberList e.fields)).take (CFTPSERVER_REPLY_MAX_LEN - 2 - 1) =
      passiveText (numberList e.fields) := List.take_of_length_le (by omega)
  show (CString.copy buffer 0 ((passiveText (numberList e.fields)).take _ ++ _)).map stringIn = _
  rw [htake]
  exact stringIn_copy (notMem_passiveText notMem_numberList) (by omega)

/-- A slave has room for a text with 16 digits. -/
theorem Endpoint.slavePassive_eq (e : Endpoint) {buffer : List Char} (h : buffer.length = 50)
    (hdigits : digitCount e.fields ≤ 16) :
    slavePassive buffer e.ip e.port = some (passiveText (numberList e.fields)) := by
  have hlength := e.length_text
  have hfits : (passiveText (numberList e.fields)).length < buffer.length := by omega
  exact stringIn_copy (notMem_passiveText notMem_numberList) hfits

/-- With more digits it writes behind its buffer. -/
theorem Endpoint.slavePassive_eq_none (e : Endpoint) {buffer : List Char} (h : buffer.length = 50)
    (hdigits : 16 < digitCount e.fields) : slavePassive buffer e.ip e.port = none := by
  have hlength := e.length_text
  have hlong : buffer.length ≤ (passiveText (numberList e.fields)).length := by omega
  have hcopy : sprintf buffer (passiveText (numberList e.fields)) = none := copy_eq_none hlong
  exact congrArg (Option.map stringIn) hcopy

/-- The model's reply is this text. -/
theorem passiveReply_text (ip port : ℕ) : ∃ text, passiveReply ip port = .line 227 text ∧
    "227 ".toList ++ text.toList = passiveText (numberList (passiveFields (ntohl ip) port)) := by
  have hfront : "227 ".toList ++ "Entering Passive Mode (".toList =
      "227 Entering Passive Mode (".toList := by decide +kernel
  have hcomma : ",".toList = [','] := by decide
  have hclose : ")".toList = [')'] := by decide
  refine ⟨_, rfl, ?_⟩
  rw [passiveFields_eq]
  unfold passiveText
  rw [← hfront]
  simp only [numberList, String.toList_append, Nat.toString_eq_repr, Nat.toList_repr,
    List.append_assoc, List.cons_append, List.nil_append, hcomma, hclose]

/-- **The reply to `PASV` is right** when its six numbers have at most 16 digits. -/
theorem passiveRight_iff (e : Endpoint) :
    (∃ args, PassiveRight e args) ↔ digitCount e.fields ≤ 16 := by
  constructor
  · intro h
    obtain ⟨args, hright⟩ := h
    by_contra hdigits
    have hlength : (List.replicate 50 ' ').length = 50 := List.length_replicate
    have hreply := hright.slave (List.replicate 50 ' ') hlength
    rw [e.slavePassive_eq_none hlength (Nat.lt_of_not_le hdigits)] at hreply
    cases hreply
  · intro h
    refine ⟨numberList e.fields, ?_, ?_, e.scanPort_fields⟩
    · intro buffer hbuffer
      exact e.slavePassive_eq hbuffer h
    · intro buffer hbuffer
      exact e.metaPassive_eq hbuffer

/-- `192.168.100.100` and port 51300. -/
def longEndpoint : Endpoint where
  ip := 1684318400
  port := 51300
  ip_lt := by decide
  ip_pos := by decide
  port_lt := by decide
  port_pos := by decide

/-- Eighteen digits: the slave writes two bytes behind its buffer. -/
theorem long_reply : ¬ ∃ args, PassiveRight longEndpoint args := by
  have hdigits : digitCount longEndpoint.fields = 18 := by decide +kernel
  have hlength : (List.replicate 50 ' ').length = 50 := List.length_replicate
  intro h
  obtain ⟨args, hright⟩ := h
  have hreply := hright.slave (List.replicate 50 ' ') hlength
  rw [longEndpoint.slavePassive_eq_none hlength (hdigits ▸ by decide)] at hreply
  cases hreply

end ClusterFtpd
