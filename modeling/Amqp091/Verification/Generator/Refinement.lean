import Amqp091.Algorithm.Requests
import Amqp091.Algorithm.Specification
import Amqp091.Verification.Generator.Codec

/-! # The generated file follows the specification

The methods as tuples of arguments are what the templates make of the structs: one set of
fields is one argument for a run of bits, and one argument for each field otherwise. -/

namespace Amqp091

open ByteCodec Reader

/-! ## Arguments of a struct -/

def AmqpType.kind : AmqpType → ArgKind
  | .bit => .bits 1
  | .octet => .octet
  | .shortshort => .octet
  | .short => .short
  | .long => .long
  | .longlong => .longlong
  | .shortstr => .shortstr
  | .longstr => .longstr
  | .table => .table

def AmqpType.toArg : (t : AmqpType) → t.Val → t.kind.Val
  | .bit, v => (#v[v] : Vector Bool 1)
  | .octet, v => (v : UInt8)
  | .shortshort, v => (v : UInt8)
  | .short, v => (v : UInt16)
  | .long, v => (v : UInt32)
  | .longlong, v => (v : UInt64)
  | .shortstr, v => (v : Bytes)
  | .longstr, v => (v : Bytes)
  | .table, v => (v : Table)

def Fieldset.kinds : Fieldset → List ArgKind
  | ⟨.bit, names⟩ => [.bits names.length]
  | ⟨t, names⟩ => names.map fun _ => t.kind

def eachArg (msg : Record) (t : AmqpType) :
    (names : List String) → Args (names.map fun _ => t.kind)
  | [] => ()
  | name :: names => (t.toArg (msg ⟨name, t⟩), eachArg msg t names)

def bitArg (msg : Record) (names : List String) : Args [.bits names.length] :=
  ((⟨(names.map fun name => msg ⟨name, .bit⟩).toArray, by simp⟩ : Vector Bool names.length), ())

def Fieldset.args (msg : Record) : (set : Fieldset) → Args set.kinds
  | ⟨.bit, names⟩ => bitArg msg names
  | ⟨.octet, names⟩ => eachArg msg .octet names
  | ⟨.shortshort, names⟩ => eachArg msg .shortshort names
  | ⟨.short, names⟩ => eachArg msg .short names
  | ⟨.long, names⟩ => eachArg msg .long names
  | ⟨.longlong, names⟩ => eachArg msg .longlong names
  | ⟨.shortstr, names⟩ => eachArg msg .shortstr names
  | ⟨.longstr, names⟩ => eachArg msg .longstr names
  | ⟨.table, names⟩ => eachArg msg .table names

def Args.append :
    {kinds kinds' : List ArgKind} → Args kinds → Args kinds' → Args (kinds ++ kinds')
  | [], _, _, args' => args'
  | _ :: _, _, (v, vs), args' => (v, Args.append vs args')

/-- The arguments of the sets one after the other. -/
def argsOf (msg : Record) : (sets : List Fieldset) → Args (sets.flatMap Fieldset.kinds)
  | [] => ()
  | set :: sets => (set.args msg).append (argsOf msg sets)

/-! ## Writing -/

variable {kinds kinds' : List ArgKind}

/-- The accumulator behind all arguments. -/
def bitsAfterArgs : (kinds : List ArgKind) → UInt8 → Args kinds → UInt8
  | [], bits, _ => bits
  | kind :: kinds, bits, (v, vs) => bitsAfterArgs kinds (bitsAfter kind bits v) vs

theorem writeArgs_append (bits : UInt8) (args : Args kinds) (args' : Args kinds') :
    writeArgs (kinds ++ kinds') bits (args.append args') =
      writeArgs kinds bits args >>= fun _ =>
        writeArgs kinds' (bitsAfterArgs kinds bits args) args' := by
  induction kinds generalizing bits with
  | nil => rfl
  | cons kind kinds ih =>
      obtain ⟨v, vs⟩ := args
      change (writeArg kind bits v >>= fun _ =>
        writeArgs (kinds ++ kinds') _ (Args.append vs args')) = _
      rw [ih]
      exact (Output.bind_bind _ _ _).symm

/-- A member that is not a bit is written as its argument and leaves the accumulator. -/
theorem writeArgs_eachArg (msg : Record) {t : AmqpType} (w : t.Val → Output GoError Unit)
    (hwrite : ∀ bits v, writeArg t.kind bits (t.toArg v) = w v)
    (hbits : ∀ bits v, bitsAfter t.kind bits (t.toArg v) = bits) (bits : UInt8)
    (names : List String) :
    writeArgs _ bits (eachArg msg t names) = encEach w (msg.get t names) ∧
      bitsAfterArgs _ bits (eachArg msg t names) = bits := by
  induction names with
  | nil => exact ⟨rfl, rfl⟩
  | cons name names ih =>
      refine ⟨?_, ?_⟩
      · change (writeArg t.kind bits (t.toArg (msg ⟨name, t⟩)) >>= fun _ =>
          writeArgs _ (bitsAfter t.kind bits (t.toArg (msg ⟨name, t⟩))) (eachArg msg t names)) = _
        rw [hwrite, hbits, ih.1]
        rfl
      · change bitsAfterArgs _ (bitsAfter t.kind bits (t.toArg (msg ⟨name, t⟩)))
          (eachArg msg t names) = bits
        rw [hbits, ih.2]

theorem writeArgs_args (msg : Record) (bits : UInt8) (set : Fieldset) :
    writeArgs set.kinds bits (set.args msg) =
        enc bits set.amqpType (msg.get set.amqpType set.names) ∧
      bitsAfterArgs set.kinds bits (set.args msg) =
        bitsAfterSet bits set.amqpType (msg.get set.amqpType set.names) := by
  obtain ⟨t, names⟩ := set
  cases t with
  | bit => exact ⟨Output.bind_pure_unit _, rfl⟩
  | _ => exact writeArgs_eachArg msg _ (fun _ _ => rfl) (fun _ _ => rfl) bits names

theorem writeArgs_argsOf (msg : Record) (bits : UInt8) (sets : List Fieldset) :
    writeArgs _ bits (argsOf msg sets) = writeBody bits msg sets := by
  induction sets generalizing bits with
  | nil => rfl
  | cons set sets ih =>
      change writeArgs (set.kinds ++ sets.flatMap Fieldset.kinds) bits _ = _
      rw [argsOf, writeArgs_append, (writeArgs_args msg bits set).1,
        (writeArgs_args msg bits set).2]
      simp only [ih]
      rfl

/-! ## Reading -/

theorem readArgs_append (kinds kinds' : List ArgKind) :
    readArgs (kinds ++ kinds') = do
      let args ← readArgs kinds
      let args' ← readArgs kinds'
      return args.append args' := by
  induction kinds with
  | nil => exact (bind_return _).symm
  | cons kind kinds ih =>
      refine Eq.trans ?_ (bind_bind (readArg kind) _ _).symm
      refine congrArg (readArg kind >>= ·) (funext fun v => ?_)
      refine (congrArg (· >>= fun vs => pure (v, vs)) ih).trans ?_
      refine (bind_bind (readArgs kinds) _ _).trans ?_
      refine Eq.trans ?_ (bind_bind (readArgs kinds) _ _).symm
      refine congrArg (readArgs kinds >>= ·) (funext fun vs => ?_)
      exact bind_bind (readArgs kinds') _ _

/-- The members behind which nothing is read keep their values. -/
theorem readBody_of_not_mem {into msg : Record} {sets : List Fieldset} {bs rest : Bytes}
    (h : readBody into sets bs = .ok msg rest) {field : SpecField}
    (hfield : field.name ∉ sets.flatMap Fieldset.names) : msg field = into field := by
  induction sets generalizing into bs with
  | nil =>
      cases h
      rfl
  | cons set sets ih =>
      rw [List.flatMap_cons, List.mem_append, not_or] at hfield
      obtain ⟨vs, mid, -, hrest⟩ := bind_eq_ok.mp h
      rw [ih hrest hfield.2, Record.set_of_not_mem hfield.1]

theorem eachArg_congr {msg msg' : Record} {t : AmqpType} {names : List String}
    (h : ∀ name ∈ names, msg ⟨name, t⟩ = msg' ⟨name, t⟩) :
    eachArg msg t names = eachArg msg' t names := by
  induction names with
  | nil => rfl
  | cons name names ih =>
      obtain ⟨hname, hnames⟩ := List.forall_mem_cons.mp h
      rw [eachArg, eachArg, hname, ih hnames]

theorem args_congr {msg msg' : Record} {set : Fieldset}
    (h : ∀ name ∈ set.names, msg ⟨name, set.amqpType⟩ = msg' ⟨name, set.amqpType⟩) :
    set.args msg = set.args msg' := by
  obtain ⟨t, names⟩ := set
  cases t with
  | bit =>
      have hmap := List.map_congr_left h
      change bitArg msg names = bitArg msg' names
      simp only [bitArg]
      congr 2
      exact congrArg List.toArray hmap
  | _ => exact eachArg_congr h

/-- Members are assigned in the order in which their arguments are read. -/
theorem readArgs_eachArg {t : AmqpType} (p : FieldReader t.Val)
    (hread : readArg t.kind = do let v ← p; return t.toArg v) (into : Record)
    {names : List String} (hnodup : names.Nodup) :
    (do let vs ← decEach p names.length; return eachArg (into.set t names vs) t names) =
      readArgs (names.map fun _ => t.kind) := by
  induction names generalizing into with
  | nil => rfl
  | cons name names ih =>
      obtain ⟨hnot, hnodup⟩ := List.nodup_cons.mp hnodup
      refine (bind_bind p _ _).trans ?_
      have hright : readArgs (List.map (fun _ => t.kind) (name :: names)) =
          p >>= fun v => readArgs (names.map fun _ => t.kind) >>= fun vs =>
            pure (t.toArg v, vs) := by
        change (readArg t.kind >>= _) = _
        rw [hread]
        exact bind_bind p _ _
      rw [hright]
      refine congrArg (p >>= ·) (funext fun v => ?_)
      rw [← ih (Function.update into ⟨name, t⟩ v) hnodup]
      refine (bind_bind (decEach p names.length) _ _).trans ?_
      refine Eq.trans ?_ (bind_bind (decEach p names.length) _ _).symm
      refine congrArg (decEach p names.length >>= ·) (funext fun vs => ?_)
      have hfirst : Record.set (Function.update into ⟨name, t⟩ v) t names vs ⟨name, t⟩ = v := by
        rw [Record.set_of_not_mem hnot, Function.update_self]
      exact congrArg (fun u => (pure (t.toArg u, _) : FieldReader (t.kind.Val × Args _))) hfirst

theorem bitArg_eq {msg : Record} {names : List String} {v : Vector Bool names.length}
    (h : msg.get .bit names = v.toList) : bitArg msg names = (v, ()) := by
  have hvector : (⟨(names.map fun name => msg ⟨name, .bit⟩).toArray, by simp⟩ :
      Vector Bool names.length) = v := Vector.toList_inj.mp h
  exact congrArg (·, ()) hvector

theorem readArgs_args (into : Record) {set : Fieldset} (hnodup : set.names.Nodup) :
    (do let vs ← dec set.amqpType set.names.length
        return set.args (into.set set.amqpType set.names vs)) = readArgs set.kinds := by
  obtain ⟨t, names⟩ := set
  cases t with
  | bit =>
      refine (bind_bind readUInt8 _ _).trans ?_
      refine Eq.trans ?_ (bind_bind readUInt8 _ _).symm
      refine congrArg (readUInt8 >>= ·) (funext fun bits => ?_)
      have hget : (into.set .bit names (getBits names.length bits).toList).get .bit names =
          (getBits names.length bits).toList := Record.get_set hnodup into Vector.length_toList
      exact congrArg (fun args => (pure args : FieldReader (Args [.bits names.length])))
        (bitArg_eq hget)
  | _ => exact readArgs_eachArg _ (bind_return _).symm into hnodup

theorem readArgs_argsOf (into : Record) {sets : List Fieldset}
    (hnodup : (sets.flatMap Fieldset.names).Nodup) :
    (do let msg ← readBody into sets; return argsOf msg sets) =
      readArgs (sets.flatMap Fieldset.kinds) := by
  induction sets generalizing into with
  | nil => rfl
  | cons set sets ih =>
      rw [List.flatMap_cons, List.nodup_append] at hnodup
      obtain ⟨hset, hsets, hdisjoint⟩ := hnodup
      -- what is read for the other sets leaves the members of this one
      have hrest : ∀ vs,
          (readBody (into.set set.amqpType set.names vs) sets >>= fun msg =>
            (pure ((set.args msg).append (argsOf msg sets)) : FieldReader (Args _))) =
          readArgs (sets.flatMap Fieldset.kinds) >>= fun args =>
            pure ((set.args (into.set set.amqpType set.names vs)).append args) := by
        intro vs
        rw [← ih (into.set set.amqpType set.names vs) hsets, bind_bind]
        funext bs
        rw [bind_apply, bind_apply]
        cases hread : readBody (into.set set.amqpType set.names vs) sets bs with
        | ok msg rest =>
            have hargs : set.args msg = set.args (into.set set.amqpType set.names vs) := by
              refine args_congr fun name hname => readBody_of_not_mem hread ?_
              exact fun hmem => hdisjoint name hname name hmem rfl
            rw [Result.andThen_ok, hargs]
            rfl
        | _ => rfl
      change (readBody into (set :: sets) >>= fun msg => _) = readArgs (set.kinds ++ _)
      rw [readArgs_append, ← readArgs_args into hset]
      refine (bind_bind (dec _ _) _ _).trans ?_
      refine Eq.trans ?_ (bind_bind (dec _ _) _ _).symm
      exact congrArg (dec set.amqpType set.names.length >>= ·) (funext hrest)

/-! ## The methods of the file -/

/-- The structs have the names and the members that the generator gives them. -/
theorem findMethod_id (m : Method) :
    ∃ c d, findMethod m.id.1 m.id.2 = some (c, d) ∧ structName c d = m.structName ∧
      d.content = m.hasContent ∧ d.members = some m.members := by
  cases m <;> exact ⟨_, _, rfl, by decide +kernel, rfl, by decide +kernel⟩

def Method.hasNoWait (m : Method) : Bool := m.members.any fun field => field.name = "NoWait"

/-- The sets are the layout of the method, and `wait` looks at the member `NoWait`, which
`confirmSelect` does not have. -/
theorem fieldsets_members (m : Method) :
    ∃ c d sets, ∃ hkinds : sets.flatMap Fieldset.kinds = m.layout,
      findMethod m.id.1 m.id.2 = some (c, d) ∧ fieldsets m.members = some sets ∧
      (sets.flatMap Fieldset.names).Nodup ∧
      ∀ msg, Message.wait ⟨m, hkinds ▸ argsOf msg sets⟩ =
        (d.synchronous && !(m.hasNoWait && msg ⟨"NoWait", .bit⟩)) := by
  cases m
  all_goals
    refine ⟨_, _, _, rfl, rfl, rfl, by decide +kernel, fun msg => ?_⟩
    first
      | rw [show Method.hasNoWait _ = true by decide +kernel]
        rfl
      | rw [show Method.hasNoWait _ = false by decide +kernel]
        rfl

theorem hasField_eq {d : XmlMethod} {members : List SpecField} (h : d.members = some members)
    (name : String) : d.hasField name = members.any fun field => field.name = name := by
  rw [XmlMethod.members] at h
  rw [XmlMethod.hasField]
  generalize d.fields = fields at h
  induction fields generalizing members with
  | nil =>
      cases h
      rfl
  | cons field fields ih =>
      simp only [List.mapM_cons, Option.bind_eq_bind, Option.bind_eq_some_iff,
        Option.map_eq_some_iff] at h
      obtain ⟨first, ⟨type, -, rfl⟩, rest, hrest, hmembers⟩ := h
      cases hmembers
      rw [List.any_cons, List.any_cons, ih hrest]

theorem writeArgs_cast {kinds kinds' : List ArgKind} (h : kinds = kinds') (bits : UInt8)
    (args : Args kinds) : writeArgs kinds' bits (h ▸ args) = writeArgs kinds bits args := by
  subst h
  rfl

theorem readArgs_cast {kinds kinds' : List ArgKind} (h : kinds = kinds') :
    readArgs kinds' = do let args ← readArgs kinds; return h ▸ args := by
  subst h
  exact (bind_return _).symm

theorem id_of_methodOf {classId methodId : UInt16} {m : Method}
    (h : methodOf classId methodId = .ok m) : m.id = (classId, methodId) := by
  unfold methodOf at h
  split at h
  all_goals first
    | (split at h <;> cases h <;> rfl)
    | cases h

theorem findMethod_of_error {classId methodId : UInt16} {e : GoError}
    (h : methodOf classId methodId = .error e) : findMethod classId methodId = none := by
  unfold methodOf at h
  split at h
  all_goals try (split at h <;> cases h)
  all_goals
    simp_all [findMethod, classes, connectionClass, channelClass, exchangeClass, queueClass,
      basicClass, txClass, confirmClass, List.find?]

/-- `spec091.go` is what the generator makes of the specification: every method has its
struct there with the members of that name and type, `write`, `read` and `wait` do what the
templates say, and the switch of `parseMethodFrame` knows exactly the specified methods. -/
theorem generated_from_specification :
    (∀ m : Method, ∃ c d sets, ∃ hkinds : sets.flatMap Fieldset.kinds = m.layout,
      findMethod m.id.1 m.id.2 = some (c, d) ∧ structName c d = m.structName ∧
      d.content = m.hasContent ∧ d.members = some m.members ∧
      fieldsets m.members = some sets ∧
      (∀ msg, Message.write ⟨m, hkinds ▸ argsOf msg sets⟩ = writeMethod sets msg) ∧
      m.read = (do let msg ← readMethod sets; return ⟨m, hkinds ▸ argsOf msg sets⟩) ∧
      ∀ msg, Message.wait ⟨m, hkinds ▸ argsOf msg sets⟩ = d.wait msg) ∧
    ∀ classId methodId,
      (∃ m : Method, m.id = (classId, methodId) ∧ methodOf classId methodId = .ok m) ∨
        findMethod classId methodId = none ∧ ∃ e, methodOf classId methodId = .error e := by
  refine ⟨fun m => ?_, fun classId methodId => ?_⟩
  · obtain ⟨c, d, hfind, hname, hcontent, hmembers⟩ := findMethod_id m
    obtain ⟨c', d', sets, hkinds, hfind', hsets, hnodup, hwait⟩ := fieldsets_members m
    rw [hfind] at hfind'
    cases hfind'
    refine ⟨c, d, sets, hkinds, hfind, hname, hcontent, hmembers, hsets, ?_, ?_, ?_⟩
    · intro msg
      rw [Message.write, writeArgs_cast, writeArgs_argsOf]
      rfl
    · have hargs := readArgs_argsOf (fun field => field.type.zero) hnodup
      rw [Method.read, readArgs_cast hkinds, ← hargs]
      simp only [bind_bind, pure_then]
      rfl
    · intro msg
      rw [hwait, XmlMethod.wait, hasField_eq hmembers]
      rfl
  · cases h : methodOf classId methodId with
    | ok m => exact .inl ⟨m, id_of_methodOf h, rfl⟩
    | error e => exact .inr ⟨findMethod_of_error h, e, rfl⟩

end Amqp091
