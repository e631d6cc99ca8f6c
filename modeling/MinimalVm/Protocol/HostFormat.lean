import MinimalVm.Protocol.Codec

/-! The messages a host may send, as the specification writes them, and what
the decoder makes of them.

The fields of an object may stand in any order and among fields that are not
known. Only records pass over unknown fields: a message and the contents of a
stream are objects of one entry, there is no `close`, and `kill` has a field
that the specification does not mention.
-/

set_option autoImplicit false

namespace MinimalVm.Protocol

open MinimalVm.Semantics MinimalVm.Text MinimalVm.Json

/-- A message of the host, with its optional fields where it has any. -/
inductive HostForm where
  | exec (prog : String) (args : Option (List String)) (pwd user : Option String) (lineBufferedIo : Option Bool)
  | stdinData (content : String)
  | stdinClosed
  | stdoutClose
  | stderrClose
  | kill

namespace HostForm

def verb : HostForm → String
  | .exec _ _ _ _ _ => "exec"
  | .stdinData _ | .stdinClosed => "stdin"
  | .stdoutClose => "stdout"
  | .stderrClose => "stderr"
  | .kill => "kill"

def fields : HostForm → List (String × Json)
  | .exec prog args pwd user lineBufferedIo =>
    ("prog", .str prog) :: (entryIf "args" (args.map fun args => .arr (args.map .str)) ++
      entryIf "pwd" (pwd.map .str) ++ entryIf "user" (user.map .str) ++
      entryIf "line_buffered_io" (lineBufferedIo.map .bool))
  | .stdinData content => [("data", .str content)]
  | .stdinClosed => [("closed", .bool true)]
  | .stdoutClose | .stderrClose => [("close", .bool true)]
  | .kill => []

/-- The names of fields that the specification gives for the object. -/
def known : HostForm → List String
  | .exec _ _ _ _ _ => ["prog", "args", "pwd", "user", "line_buffered_io"]
  | .stdinData _ | .stdinClosed | .stdoutClose | .stderrClose => ["data", "close", "closed"]
  | .kill => []

/-- The form written with extra fields in its object and others beside it. -/
def Written (form : HostForm) (extra others : List (String × Json)) (v : Json) : Prop :=
  (∀ entry ∈ extra, entry.1 ∉ form.known) ∧
    ∃ entries top : List (String × Json), entries.Perm (form.fields ++ extra) ∧
      top.Perm ((form.verb, .obj entries) :: others) ∧ v = .obj top

/-- The message that the decoder understands, if it understands any. -/
def Understood (extra others : List (String × Json)) (msg : Message) : HostForm → Prop
  | .exec prog args pwd user lineBufferedIo =>
    others = [] ∧ msg = .exec ⟨prog, args.getD [], pwd, user, lineBufferedIo⟩
  | .stdinData content => others = [] ∧ extra = [] ∧ msg = .stdin (.data (utf8 content))
  | .stdinClosed => others = [] ∧ extra = [] ∧ msg = .stdin .closed
  | .stdoutClose | .stderrClose => False
  | .kill => others = [] ∧ ∃ signal : Int32, valuesOf "signal" extra = [.int signal.toInt] ∧ msg = .kill ⟨signal⟩

end HostForm

/-! ## Records -/

namespace Exec

structure FieldsMet (seen : Fields) (entries : List (String × Json)) (out : Fields) : Prop where
  prog : FieldMet decodeString seen.prog (valuesOf "prog" entries) out.prog
  args : FieldMet (decodeVec decodeString) seen.args (valuesOf "args" entries) out.args
  pwd : FieldMet (decodeOption decodeString) seen.pwd (valuesOf "pwd" entries) out.pwd
  user : FieldMet (decodeOption decodeString) seen.user (valuesOf "user" entries) out.user
  lineBufferedIo : FieldMet (decodeOption decodeBool) seen.lineBufferedIo (valuesOf "line_buffered_io" entries)
    out.lineBufferedIo

theorem visitMap_met {seen out : Fields} {entries : List (String × Json)} (met : FieldsMet seen entries out) :
    visitMap seen entries = .ok out := by
  -- Each entry is met by the field of its name or passed over by all of them.
  induction entries generalizing seen with
  | nil =>
    obtain ⟨_, _, _, _, _⟩ := seen
    obtain ⟨_, _, _, _, _⟩ := out
    obtain ⟨prog, args, pwd, user, lineBufferedIo⟩ := met
    cases prog
    cases args
    cases pwd
    cases user
    cases lineBufferedIo
    rfl
  | cons entry rest ih =>
    obtain ⟨key, v⟩ := entry
    rw [visitMap]
    unfold FieldName.of
    by_cases prog : key = "prog"
    · subst prog
      obtain ⟨here, after⟩ := met.prog.here
      simp only [if_true, here, bind, Except.bind]
      exact ih ⟨after, met.args.skip (by decide), met.pwd.skip (by decide), met.user.skip (by decide),
        met.lineBufferedIo.skip (by decide)⟩
    rw [if_neg prog]
    by_cases args : key = "args"
    · subst args
      obtain ⟨here, after⟩ := met.args.here
      simp only [if_true, here, bind, Except.bind]
      exact ih ⟨met.prog.skip prog, after, met.pwd.skip (by decide), met.user.skip (by decide),
        met.lineBufferedIo.skip (by decide)⟩
    rw [if_neg args]
    by_cases pwd : key = "pwd"
    · subst pwd
      obtain ⟨here, after⟩ := met.pwd.here
      simp only [if_true, here, bind, Except.bind]
      exact ih ⟨met.prog.skip prog, met.args.skip args, after, met.user.skip (by decide),
        met.lineBufferedIo.skip (by decide)⟩
    rw [if_neg pwd]
    by_cases user : key = "user"
    · subst user
      obtain ⟨here, after⟩ := met.user.here
      simp only [if_true, here, bind, Except.bind]
      exact ih ⟨met.prog.skip prog, met.args.skip args, met.pwd.skip pwd, after,
        met.lineBufferedIo.skip (by decide)⟩
    rw [if_neg user]
    by_cases lineBufferedIo : key = "line_buffered_io"
    · subst lineBufferedIo
      obtain ⟨here, after⟩ := met.lineBufferedIo.here
      simp only [if_true, here, bind, Except.bind]
      exact ih ⟨met.prog.skip prog, met.args.skip args, met.pwd.skip pwd, met.user.skip user, after⟩
    rw [if_neg lineBufferedIo]
    exact ih ⟨met.prog.skip prog, met.args.skip args, met.pwd.skip pwd, met.user.skip user,
      met.lineBufferedIo.skip lineBufferedIo⟩

end Exec

@[simp] theorem valuesOf_entryIf_same (name : String) (value : Option Json) :
    valuesOf name (entryIf name value) = value.toList := by
  cases value with
  | none => rfl
  | some v => exact valuesOf_cons_same name v []

@[simp] theorem valuesOf_entryIf_other {name other : String} (apart : other ≠ name) (value : Option Json) :
    valuesOf name (entryIf other value) = [] := by
  cases value with
  | none => rfl
  | some v => exact valuesOf_cons_other apart v []

theorem valuesOf_unknown {extra : List (String × Json)} {known : List String} {name : String}
    (unknown : ∀ entry ∈ extra, entry.1 ∉ known) (member : name ∈ known) : valuesOf name extra = [] := by
  apply valuesOf_absent
  rintro entry inside rfl
  exact unknown entry inside member

/-- An exec object is decoded whatever the order of its fields, whichever of
the optional ones are left out and whatever unknown ones are added. -/
theorem Exec.decode_written {prog : String} {args : Option (List String)} {pwd user : Option String}
    {lineBufferedIo : Option Bool} {entries extra : List (String × Json)}
    (unknown : ∀ entry ∈ extra, entry.1 ∉ ["prog", "args", "pwd", "user", "line_buffered_io"])
    (order : entries.Perm ((HostForm.exec prog args pwd user lineBufferedIo).fields ++ extra)) :
    decode (.obj entries) = .ok ⟨prog, args.getD [], pwd, user, lineBufferedIo⟩ := by
  have once (name : String) (value : Option Json) (member : name ∈ ["prog", "args", "pwd", "user", "line_buffered_io"])
      (written : valuesOf name (HostForm.exec prog args pwd user lineBufferedIo).fields = value.toList) :
      valuesOf name entries = value.toList := by
    apply valuesOf_perm value order
    rw [valuesOf_append, valuesOf_unknown unknown member, List.append_nil, written]
  have string (s : String) : decodeOption decodeString (.str s) = .ok (some s) := rfl
  have bool (b : Bool) : decodeOption decodeBool (.bool b) = .ok (some b) := rfl
  have strings (l : List String) : decodeVec decodeString (.arr (l.map .str)) = .ok (id l) :=
    mapM_map_ok (fun _ : String => rfl) l
  have met : FieldsMet {} entries
      ⟨some prog, args.map id, pwd.map some, user.map some, lineBufferedIo.map some⟩ := by
    constructor
    · have written : valuesOf "prog" entries = (some (Json.str prog)).toList := by
        apply once "prog" (some (.str prog)) (by decide)
        simp [HostForm.fields]
      rw [written]
      exact .later rfl
    · apply FieldMet.of_option strings
      apply once "args" _ (by decide)
      simp [HostForm.fields]
    · apply FieldMet.of_option string
      apply once "pwd" _ (by decide)
      simp [HostForm.fields]
    · apply FieldMet.of_option string
      apply once "user" _ (by decide)
      simp [HostForm.fields]
    · apply FieldMet.of_option bool
      apply once "line_buffered_io" _ (by decide)
      simp [HostForm.fields]
  have flatten {A : Type} (value : Option A) : (value.map some).getD none = value := by cases value <;> rfl
  simp [decode, visitMap_met met, Fields.finish, required, flatten, bind, Except.bind, pure, Except.pure]

/-! ## Tagged unions -/

theorem newtype_iff {A B : Type} {decode : Decoder A} {wrap : A → B} {v : Json} {b : B} :
    newtype decode wrap v = .ok b ↔ ∃ a, decode v = .ok a ∧ b = wrap a := by
  rw [newtype]
  cases decode v with
  | error error =>
    constructor
    · intro decoded
      cases decoded
    · rintro ⟨_, impossible, -⟩
      cases impossible
  | ok a =>
    constructor
    · intro decoded
      cases decoded
      exact ⟨a, rfl, rfl⟩
    · rintro ⟨_, same, rfl⟩
      cases same
      rfl

theorem decodeEnum_iff {A B : Type} {variants : List (String × Decoder B)} {name : String} {decode : Decoder A}
    {wrap : A → B} (found : variants.lookup name = some (newtype decode wrap)) {v : Json} {b : B} :
    decodeEnum variants (.obj [(name, v)]) = .ok b ↔ ∃ a, decode v = .ok a ∧ b = wrap a := by
  rw [decodeEnum_entry found, newtype_iff]

theorem only_entry {A : Type} {variants : List (String × Decoder A)} {entries rest : List (String × Json)}
    {name : String} {v : Json} {a : A} (order : entries.Perm ((name, v) :: rest)) :
    decodeEnum variants (.obj entries) = .ok a ↔ rest = [] ∧ decodeEnum variants (.obj [(name, v)]) = .ok a := by
  constructor
  · intro decoded
    obtain ⟨key, w, decode, alone, -, -⟩ := decodeEnum_alone decoded
    have short := order.length_eq
    rw [alone] at short order
    have none : rest = [] := by
      apply List.length_eq_zero_iff.mp
      simp only [List.length_cons, List.length_nil] at short
      omega
    rw [none] at order
    have same := List.singleton_perm_singleton.mp order
    rw [alone, same] at decoded
    exact ⟨none, decoded⟩
  · rintro ⟨rfl, decoded⟩
    rw [List.perm_singleton.mp order]
    exact decoded

theorem stdio_iff (stream : String × (Stdio → Message)) (member : stream ∈ streams) {name : String} {v : Json}
    {entries extra : List (String × Json)} (order : entries.Perm ((name, v) :: extra)) {msg : Message} :
    Message.decode (.obj [(stream.1, .obj entries)]) = .ok msg ↔
      extra = [] ∧ ∃ stdio, Stdio.decode (.obj [(name, v)]) = .ok stdio ∧ msg = stream.2 stdio := by
  have contents : Message.decode (.obj [(stream.1, .obj entries)]) = .ok msg ↔
      ∃ stdio, Stdio.decode (.obj entries) = .ok stdio ∧ msg = stream.2 stdio := by
    simp only [streams, List.mem_cons, List.not_mem_nil, or_false] at member
    rcases member with rfl | rfl | rfl <;> exact decodeEnum_iff rfl
  rw [contents]
  constructor
  · rintro ⟨stdio, decoded, same⟩
    obtain ⟨none, alone⟩ := (only_entry order).mp decoded
    exact ⟨none, stdio, alone, same⟩
  · rintro ⟨none, stdio, alone, same⟩
    exact ⟨stdio, (only_entry order).mpr ⟨none, alone⟩, same⟩

theorem close_unknown (v : Json) (stdio : Stdio) : Stdio.decode (.obj [("close", v)]) ≠ .ok stdio := nofun

theorem decoded_iff {A B : Type} {result : Except DecodeError A} {a : A} (decoded : result = .ok a) {wrap : A → B}
    {b : B} : (∃ other, result = .ok other ∧ b = wrap other) ↔ b = wrap a := by
  subst decoded
  constructor
  · rintro ⟨_, same, rfl⟩
    cases same
    rfl
  · rintro rfl
    exact ⟨a, rfl, rfl⟩

theorem Kill.decode_iff {entries : List (String × Json)} {kill : Kill} :
    decode (.obj entries) = .ok kill ↔ valuesOf "signal" entries = [.int kill.signal.toInt] := by
  obtain ⟨signal⟩ := kill
  have single : decode (.obj entries) = .ok ⟨signal⟩ ↔
      decodeSingle "struct Kill" "signal" decodeI32 (.obj entries) = .ok signal := by
    rw [decode]
    cases decodeSingle "struct Kill" "signal" decodeI32 (.obj entries) with
    | error error =>
      constructor
      · intro impossible
        cases impossible
      · intro impossible
        cases impossible
    | ok other =>
      constructor
      · intro same
        cases same
        rfl
      · intro same
        cases same
        rfl
  rw [single, decodeSingle_iff]
  constructor
  · rintro ⟨v, once, decoded⟩
    rw [once, decodeI32_iff.mp decoded]
  · intro once
    exact ⟨_, once, decodeI32_toInt signal⟩

/-- The decoder takes a message of the host for exactly what is understood of it. -/
theorem host_format_decoded (form : HostForm) (extra others : List (String × Json)) (v : Json)
    (written : form.Written extra others v) (msg : Message) :
    Message.decode v = .ok msg ↔ form.Understood extra others msg := by
  obtain ⟨unknown, entries, top, order, beside, rfl⟩ := written
  have stdin : ("stdin", Message.stdin) ∈ streams := List.mem_cons_self
  have stdout : ("stdout", Message.stdout) ∈ streams := List.mem_cons_of_mem _ List.mem_cons_self
  have stderr : ("stderr", Message.stderr) ∈ streams :=
    List.mem_cons_of_mem _ (List.mem_cons_of_mem _ List.mem_cons_self)
  have alone : Message.decode (.obj top) = .ok msg ↔
      others = [] ∧ Message.decode (.obj [(form.verb, .obj entries)]) = .ok msg := only_entry beside
  rw [alone]
  cases form with
  | exec prog args pwd user lineBufferedIo =>
    apply and_congr_right
    intro _
    have entry : Message.decode (.obj [("exec", .obj entries)]) = .ok msg ↔
        ∃ exec, Exec.decode (.obj entries) = .ok exec ∧ msg = .exec exec := decodeEnum_iff rfl
    exact entry.trans (decoded_iff (Exec.decode_written unknown order))
  | stdinData content =>
    apply and_congr_right
    intro _
    refine (stdio_iff ("stdin", .stdin) stdin order).trans (and_congr_right fun _ => ?_)
    exact decoded_iff rfl
  | stdinClosed =>
    apply and_congr_right
    intro _
    refine (stdio_iff ("stdin", .stdin) stdin order).trans (and_congr_right fun _ => ?_)
    exact decoded_iff rfl
  | stdoutClose =>
    refine iff_of_false ?_ id
    rintro ⟨-, decoded⟩
    obtain ⟨-, stdio, unknown, -⟩ := (stdio_iff ("stdout", .stdout) stdout order).mp decoded
    exact close_unknown _ stdio unknown
  | stderrClose =>
    refine iff_of_false ?_ id
    rintro ⟨-, decoded⟩
    obtain ⟨-, stdio, unknown, -⟩ := (stdio_iff ("stderr", .stderr) stderr order).mp decoded
    exact close_unknown _ stdio unknown
  | kill =>
    apply and_congr_right
    intro _
    have entry : Message.decode (.obj [("kill", .obj entries)]) = .ok msg ↔
        ∃ kill, Kill.decode (.obj entries) = .ok kill ∧ msg = .kill kill := decodeEnum_iff rfl
    rw [show (HostForm.kill).verb = "kill" from rfl, entry]
    constructor
    · rintro ⟨⟨signal⟩, decoded, same⟩
      refine ⟨signal, ?_, same⟩
      exact valuesOf_perm (some (.int signal.toInt)) order.symm (Kill.decode_iff.mp decoded)
    · rintro ⟨signal, once, same⟩
      refine ⟨⟨signal⟩, Kill.decode_iff.mpr ?_, same⟩
      exact valuesOf_perm (some (.int signal.toInt)) order once

theorem host_format_decoded_exec :
    Message.decode (.obj [("exec", .obj [("user", .str "root"), ("shell", .null), ("prog", .str "/bin/ls")])]) =
      .ok (.exec ⟨"/bin/ls", [], none, some "root", none⟩) := by
  let form : HostForm := .exec "/bin/ls" none none (some "root") none
  have written : form.Written [("shell", .null)] []
      (.obj [("exec", .obj [("user", .str "root"), ("shell", .null), ("prog", .str "/bin/ls")])]) := by
    refine ⟨by decide, _, _, ?_, List.Perm.refl _, rfl⟩
    have moved : ([("user", Json.str "root"), ("shell", Json.null)] ++ [("prog", Json.str "/bin/ls")]).Perm
        (("prog", Json.str "/bin/ls") :: ([("user", Json.str "root"), ("shell", Json.null)] ++ [])) :=
      List.perm_middle
    exact moved
  exact (host_format_decoded form [("shell", .null)] [] _ written _).mpr ⟨rfl, rfl⟩

/-- The kill message of the specification is rejected. -/
theorem kill_rejected :
    HostForm.kill.Written [] [] (.obj [("kill", .obj [])]) ∧ Rejects Message.decode (.obj [("kill", .obj [])]) :=
  ⟨⟨nofun, [], _, List.Perm.refl _, List.Perm.refl _, rfl⟩, _, rfl⟩

end MinimalVm.Protocol
