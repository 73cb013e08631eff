import ClusterFtpd.Lib.BinaryProtocol
import ClusterFtpd.Redis

/-!
# The structs of the RPCs

`ActiveParams`, `PasvParams` and `StorRetVal` as they go over the wire, each with its table of
fields.  The numbers are those of the machine.

Main result: `params_read_any`: what a reader makes of any sequence of fields.
-/

namespace ClusterFtpd.Slave

open FieldCodec

/-- `ActiveParams`. -/
@[ext]
structure ActiveParams where
  client_ip : Int64 := 0
  client_port : Int32 := 0
  fid : Int64 := 0
  restart_at : Int64 := 0
  transfer_buffer_size : Int32 := 0
  server_ip : Int64 := 0
  server_port : Int32 := 0
  trans_id : Int64 := 0
  deriving DecidableEq

/-- `PasvParams`. -/
@[ext]
structure PasvParams where
  server_ip : Int64 := 0
  server_port : Int32 := 0
  fid : Int64 := 0
  restart_at : Int64 := 0
  transfer_buffer_size : Int32 := 0
  trans_id : Int64 := 0
  deriving DecidableEq

/-- `StorRetVal`. -/
@[ext]
structure StorRetVal where
  msg : Text := []
  size : Int64 := 0
  deriving DecidableEq

/-! ### The fields -/

/-- The fields of `ActiveParams`. -/
def ActiveParams.fields : List (ScalarField Text ActiveParams) :=
  [⟨"client_ip".toList, 1, .i64 (fun a => a.client_ip) fun a v => { a with client_ip := v }⟩,
    ⟨"client_port".toList, 2, .i32 (fun a => a.client_port) fun a v => { a with client_port := v }⟩,
    ⟨"fid".toList, 3, .i64 (fun a => a.fid) fun a v => { a with fid := v }⟩,
    ⟨"restart_at".toList, 4, .i64 (fun a => a.restart_at) fun a v => { a with restart_at := v }⟩,
    ⟨"transfer_buffer_size".toList, 5,
      .i32 (fun a => a.transfer_buffer_size) fun a v => { a with transfer_buffer_size := v }⟩,
    ⟨"server_ip".toList, 6, .i64 (fun a => a.server_ip) fun a v => { a with server_ip := v }⟩,
    ⟨"server_port".toList, 7, .i32 (fun a => a.server_port) fun a v => { a with server_port := v }⟩,
    ⟨"trans_id".toList, 8, .i64 (fun a => a.trans_id) fun a v => { a with trans_id := v }⟩]

/-- The fields of `PasvParams`. -/
def PasvParams.fields : List (ScalarField Text PasvParams) :=
  [⟨"server_ip".toList, 1, .i64 (fun a => a.server_ip) fun a v => { a with server_ip := v }⟩,
    ⟨"server_port".toList, 2, .i32 (fun a => a.server_port) fun a v => { a with server_port := v }⟩,
    ⟨"fid".toList, 3, .i64 (fun a => a.fid) fun a v => { a with fid := v }⟩,
    ⟨"restart_at".toList, 4, .i64 (fun a => a.restart_at) fun a v => { a with restart_at := v }⟩,
    ⟨"transfer_buffer_size".toList, 5,
      .i32 (fun a => a.transfer_buffer_size) fun a v => { a with transfer_buffer_size := v }⟩,
    ⟨"trans_id".toList, 6, .i64 (fun a => a.trans_id) fun a v => { a with trans_id := v }⟩]

/-- The fields of `StorRetVal`. -/
def StorRetVal.fields : List (ScalarField Text StorRetVal) :=
  [⟨"msg".toList, 1, .string (fun a => a.msg) fun a v => { a with msg := v }⟩,
    ⟨"size".toList, 2, .i64 (fun a => a.size) fun a v => { a with size := v }⟩]

variable {β : Type} (P : Protocol β Text)

/-- `ActiveParams::read`. -/
def ActiveParams.read (a : ActiveParams) : Reader β ActiveParams :=
  P.readStruct (fields.map (ScalarField.field P)) a

/-- `ActiveParams::write`. -/
def ActiveParams.write (a : ActiveParams) : List β :=
  P.writeStruct "ActiveParams".toList (fields.map (ScalarField.field P)) a

/-- `PasvParams::read`. -/
def PasvParams.read (a : PasvParams) : Reader β PasvParams :=
  P.readStruct (fields.map (ScalarField.field P)) a

/-- `PasvParams::write`. -/
def PasvParams.write (a : PasvParams) : List β :=
  P.writeStruct "PasvParams".toList (fields.map (ScalarField.field P)) a

/-- `StorRetVal::read`. -/
def StorRetVal.read (a : StorRetVal) : Reader β StorRetVal :=
  P.readStruct (fields.map (ScalarField.field P)) a

/-- `StorRetVal::write`. -/
def StorRetVal.write (a : StorRetVal) : List β :=
  P.writeStruct "StorRetVal".toList (fields.map (ScalarField.field P)) a

/-! ### Round trips -/

variable {P}

theorem ActiveParams.reads_write (hP : P.Lawful) (a b : ActiveParams) :
    Reads (a.read P) (b.write P) b := by
  have hfits : ∀ f ∈ fields, f.part.Fits P b := by
    intro f hf
    simp only [fields, List.mem_cons, List.not_mem_nil, or_false] at hf
    obtain rfl | rfl | rfl | rfl | rfl | rfl | rfl | rfl := hf <;> exact trivial
  have hcopy : fields.foldl (fun x f => f.part.copy b x) a = b := by
    simp only [fields, List.foldl_cons, List.foldl_nil, Scalar.copy]
  have hreads := Protocol.reads_scalars hP "ActiveParams".toList (by decide) hfits a
  rw [hcopy] at hreads
  exact hreads

theorem PasvParams.reads_write (hP : P.Lawful) (a b : PasvParams) :
    Reads (a.read P) (b.write P) b := by
  have hfits : ∀ f ∈ fields, f.part.Fits P b := by
    intro f hf
    simp only [fields, List.mem_cons, List.not_mem_nil, or_false] at hf
    obtain rfl | rfl | rfl | rfl | rfl | rfl := hf <;> exact trivial
  have hcopy : fields.foldl (fun x f => f.part.copy b x) a = b := by
    simp only [fields, List.foldl_cons, List.foldl_nil, Scalar.copy]
  have hreads := Protocol.reads_scalars hP "PasvParams".toList (by decide) hfits a
  rw [hcopy] at hreads
  exact hreads

theorem StorRetVal.reads_write (hP : P.Lawful) (a : StorRetVal) {b : StorRetVal}
    (hmsg : P.Fits b.msg) : Reads (a.read P) (b.write P) b := by
  have hfits : ∀ f ∈ fields, f.part.Fits P b := by
    intro f hf
    simp only [fields, List.mem_cons, List.not_mem_nil, or_false] at hf
    obtain rfl | rfl := hf
    · exact hmsg
    · exact trivial
  have hcopy : fields.foldl (fun x f => f.part.copy b x) a = b := by
    simp only [fields, List.foldl_cons, List.foldl_nil, Scalar.copy]
  have hreads := Protocol.reads_scalars hP "StorRetVal".toList (by decide) hfits a
  rw [hcopy] at hreads
  exact hreads

/-- `read` of generated code goes around until the stop field; so it does here, however many rounds
a stream takes. -/
theorem read_rounds {A : Type} (hP : P.Lawful) (scalars : List (ScalarField Text A)) {rounds : ℕ}
    {s : List β} (hrounds : s.length < rounds) (a : A) :
    (P.readStruct (scalars.map (ScalarField.field P)) a).run s = (do
      P.readStructBegin
      let a ← P.readFields (scalars.map (ScalarField.field P)) rounds a
      P.readStructEnd
      return a : Reader β A).run s := by
  have hshrinks : ∀ f ∈ scalars.map (ScalarField.field P), ∀ a, Shrinks (f.read a) := by
    intro f hf a
    obtain ⟨scalar, -, rfl⟩ := List.mem_map.mp hf
    exact Protocol.shrinks_scalar hP scalar a
  exact Protocol.readStruct_fuel hP hshrinks hrounds a

/-! ### Any sequence of fields -/

theorem ActiveParams.foldl_take (ds : List (Datum β Text)) (a : ActiveParams) :
    ds.foldl (takeDatum fields) a =
      { client_ip := lastValue Value.asI64 1 ds a.client_ip
        client_port := lastValue Value.asI32 2 ds a.client_port
        fid := lastValue Value.asI64 3 ds a.fid
        restart_at := lastValue Value.asI64 4 ds a.restart_at
        transfer_buffer_size := lastValue Value.asI32 5 ds a.transfer_buffer_size
        server_ip := lastValue Value.asI64 6 ds a.server_ip
        server_port := lastValue Value.asI32 7 ds a.server_port
        trans_id := lastValue Value.asI64 8 ds a.trans_id } := by
  apply ActiveParams.ext
  all_goals
    refine part_eq_lastValue rfl (fun v a => by cases v <;> rfl) (fun g hg hid v a => ?_) ds a
    simp only [fields, List.mem_cons, List.not_mem_nil, or_false] at hg
    obtain rfl | rfl | rfl | rfl | rfl | rfl | rfl | rfl := hg <;>
      first | exact absurd rfl hid | (cases v <;> rfl)

theorem PasvParams.foldl_take (ds : List (Datum β Text)) (a : PasvParams) :
    ds.foldl (takeDatum fields) a =
      { server_ip := lastValue Value.asI64 1 ds a.server_ip
        server_port := lastValue Value.asI32 2 ds a.server_port
        fid := lastValue Value.asI64 3 ds a.fid
        restart_at := lastValue Value.asI64 4 ds a.restart_at
        transfer_buffer_size := lastValue Value.asI32 5 ds a.transfer_buffer_size
        trans_id := lastValue Value.asI64 6 ds a.trans_id } := by
  apply PasvParams.ext
  all_goals
    refine part_eq_lastValue rfl (fun v a => by cases v <;> rfl) (fun g hg hid v a => ?_) ds a
    simp only [fields, List.mem_cons, List.not_mem_nil, or_false] at hg
    obtain rfl | rfl | rfl | rfl | rfl | rfl := hg <;>
      first | exact absurd rfl hid | (cases v <;> rfl)

theorem StorRetVal.foldl_take (ds : List (Datum β Text)) (a : StorRetVal) :
    ds.foldl (takeDatum fields) a =
      { msg := lastValue Value.asString 1 ds a.msg
        size := lastValue Value.asI64 2 ds a.size } := by
  apply StorRetVal.ext
  all_goals
    refine part_eq_lastValue rfl (fun v a => by cases v <;> rfl) (fun g hg hid v a => ?_) ds a
    simp only [fields, List.mem_cons, List.not_mem_nil, or_false] at hg
    obtain rfl | rfl := hg <;> first | exact absurd rfl hid | (cases v <;> rfl)

/-- **Any sequence of fields**: each of the three readers takes a struct with fields in any order,
passes over those it does not know and those of another type, and gives every part the last of its
values; a part without a value stays as it was. -/
theorem params_read_any (hP : P.Lawful) (name : Text) {ds : List (Datum β Text)}
    (hds : ∀ d ∈ ds, d.value.WellFormed P) :
    (∀ a : ActiveParams, Reads (a.read P) (P.writeEntries name (ds.map (Datum.entry P)))
      { client_ip := lastValue Value.asI64 1 ds a.client_ip
        client_port := lastValue Value.asI32 2 ds a.client_port
        fid := lastValue Value.asI64 3 ds a.fid
        restart_at := lastValue Value.asI64 4 ds a.restart_at
        transfer_buffer_size := lastValue Value.asI32 5 ds a.transfer_buffer_size
        server_ip := lastValue Value.asI64 6 ds a.server_ip
        server_port := lastValue Value.asI32 7 ds a.server_port
        trans_id := lastValue Value.asI64 8 ds a.trans_id }) ∧
    (∀ a : PasvParams, Reads (a.read P) (P.writeEntries name (ds.map (Datum.entry P)))
      { server_ip := lastValue Value.asI64 1 ds a.server_ip
        server_port := lastValue Value.asI32 2 ds a.server_port
        fid := lastValue Value.asI64 3 ds a.fid
        restart_at := lastValue Value.asI64 4 ds a.restart_at
        transfer_buffer_size := lastValue Value.asI32 5 ds a.transfer_buffer_size
        trans_id := lastValue Value.asI64 6 ds a.trans_id }) ∧
    (∀ a : StorRetVal, Reads (a.read P) (P.writeEntries name (ds.map (Datum.entry P)))
      { msg := lastValue Value.asString 1 ds a.msg
        size := lastValue Value.asI64 2 ds a.size }) := by
  refine ⟨fun a => ?_, fun a => ?_, fun a => ?_⟩
  · rw [← ActiveParams.foldl_take]
    exact Protocol.reads_values hP name hds a
  · rw [← PasvParams.foldl_take]
    exact Protocol.reads_values hP name hds a
  · rw [← StorRetVal.foldl_take]
    exact Protocol.reads_values hP name hds a

/-- Three fields, in the binary protocol: the size, a flag that is not known, and the size once
more. -/
def sizeTwice : List (Datum UInt8 Text) :=
  [⟨[], 2, .i64 4⟩, ⟨[], 7, .other .bool [1]⟩, ⟨[], 2, .i64 9⟩]

theorem params_read_twice :
    Reads (StorRetVal.read BinaryProtocol.binary { msg := ['a'] })
      (BinaryProtocol.binary.writeEntries [] (sizeTwice.map (Datum.entry BinaryProtocol.binary)))
      { msg := ['a'], size := 9 } := by
  have hds : ∀ d ∈ sizeTwice, d.value.WellFormed BinaryProtocol.binary := by
    intro d hd
    simp only [sizeTwice, List.mem_cons, List.not_mem_nil, or_false] at hd
    obtain rfl | rfl | rfl := hd
    · exact trivial
    · exact ⟨by decide, fun _ => rfl⟩
    · exact trivial
  exact (params_read_any BinaryProtocol.binary_lawful [] hds).2.2 { msg := ['a'] }

end ClusterFtpd.Slave
