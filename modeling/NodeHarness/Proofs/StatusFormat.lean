import NodeHarness.NodeStatus
import NodeHarness.Proofs.NumberSpelling
import NodeHarness.Proofs.WholeOutline

/-! The format of a status report. A report is read if and only if one member is the sync part, by
either of its names, and that part has one height, and at most one hash and one flag, each in its
form. Nothing else in the document matters. -/
namespace NodeHarness

open Json Json.Outline

/-- A refusal of output keeps the text. -/
theorem decodeOutput_error {α : Type} {what : String} {read : Document → Except Fault α}
    {bytes : List UInt8} {failure : Failure}
    (refused : decodeOutput what read bytes = .error failure) :
    ∃ fault, failure = .decode what (Text.Utf8.lossy bytes) fault := by
  rw [decodeOutput] at refused
  split at refused
  · cases refused
  · cases refused
    exact ⟨_, rfl⟩

namespace Json

/-- The members with their names as they are read. -/
def Named (members : List (QuotedText × Outline)) (named : List (String × Outline)) : Prop :=
  members.map (fun (name, o) => (name.decode, o)) = named.map fun (name, o) => (.ok name, o)

/-- The values of the members with such a name, in order. -/
def valuesOf (wanted : String → Bool) (named : List (String × Outline)) : List Outline :=
  (named.filter fun (name, _) => wanted name).map Prod.snd

theorem named_nil {named : List (String × Outline)} : Named [] named ↔ named = [] := by
  cases named <;> simp [Named]

theorem named_cons {name : QuotedText} {o : Outline} {rest : List (QuotedText × Outline)}
    {named : List (String × Outline)} :
    Named ((name, o) :: rest) named ↔
      ∃ n later, name.decode = .ok n ∧ named = (n, o) :: later ∧ Named rest later := by
  cases named with
  | nil => simp [Named]
  | cons first later =>
    obtain ⟨n, v⟩ := first
    simp only [Named, List.map_cons, List.cons.injEq, Prod.mk.injEq]
    constructor
    · rintro ⟨⟨read, rfl⟩, rest⟩
      exact ⟨n, later, read, ⟨⟨rfl, rfl⟩, rfl⟩, rest⟩
    · rintro ⟨_, _, read, ⟨⟨rfl, rfl⟩, rfl⟩, rest⟩
      exact ⟨⟨read, rfl⟩, rest⟩

theorem named_unique {members : List (QuotedText × Outline)} {a b : List (String × Outline)}
    (left : Named members a) (right : Named members b) : a = b := by
  induction members generalizing a b with
  | nil => rw [named_nil.mp left, named_nil.mp right]
  | cons member rest ih =>
    obtain ⟨name, o⟩ := member
    obtain ⟨n, later, read, rfl, leftRest⟩ := named_cons.mp left
    obtain ⟨m, others, again, rfl, rightRest⟩ := named_cons.mp right
    rw [Except.ok.inj (read.symm.trans again), ih leftRest rightRest]

theorem valuesOf_cons (wanted : String → Bool) (name : String) (o : Outline)
    (rest : List (String × Outline)) :
    valuesOf wanted ((name, o) :: rest) =
      if wanted name then o :: valuesOf wanted rest else valuesOf wanted rest := by
  cases found : wanted name <;> simp [valuesOf, found]

section Fills

variable {α : Type} (read : Outline → Except Fault α)

/-- What becomes of a field that is held when the values of its name come: it takes one value, and
only when it holds none. -/
def Fills (held : Option α) (values : List Outline) (filled : Option α) : Prop :=
  values = [] ∧ filled = held ∨
    held = none ∧ ∃ v a, values = [v] ∧ read v = .ok a ∧ filled = some a

theorem fills_nil {held filled : Option α} : Fills read held [] filled ↔ filled = held := by
  simp [Fills]

theorem fills_cons {held filled : Option α} {v : Outline} {rest : List Outline} :
    Fills read held (v :: rest) filled ↔
      held = none ∧ ∃ a, read v = .ok a ∧ Fills read (some a) rest filled := by
  simp only [Fills, List.cons_ne_nil, false_and, false_or, List.cons.injEq, reduceCtorEq, or_false]
  constructor
  · rintro ⟨empty, _, a, ⟨rfl, rfl⟩, readable, rfl⟩
    exact ⟨empty, a, readable, rfl, rfl⟩
  · rintro ⟨empty, a, readable, rfl, rfl⟩
    exact ⟨empty, v, a, ⟨rfl, rfl⟩, readable, rfl⟩

end Fills

/-- Takes one member; a name that is not asked for changes nothing. -/
def Takes {σ : Type} (take : String → Option (σ → Outline → Except Fault σ)) (state : σ)
    (name : String) (o : Outline) (next : σ) : Prop :=
  match take name with
  | some read => read state o = .ok next
  | none => next = state

theorem foldMembers_cons {σ : Type} (take : String → Option (σ → Outline → Except Fault σ))
    (state last : σ) (name : QuotedText) (o : Outline) (rest : List (QuotedText × Outline))
    (plain : o.skim = .ok ()) :
    foldMembers take state ((name, o) :: rest) = .ok last ↔
      ∃ n next, name.decode = .ok n ∧ Takes take state n o next ∧
        foldMembers take next rest = .ok last := by
  rw [foldMembers]
  simp only [Takes]
  cases read : name.decode with
  | error fault => simp [bind, Except.bind]
  | ok n =>
    cases known : take n with
    | none => simp [bind, Except.bind, Except.map, plain, known]
    | some value =>
      simp only [bind, Except.bind, known]
      cases result : value state o <;> simp [known, result]

theorem members_plain {name : QuotedText} {o : Outline} {rest : List (QuotedText × Outline)}
    (plain : skimMembers ((name, o) :: rest) = .ok ()) :
    o.skim = .ok () ∧ skimMembers rest = .ok () := by
  rw [skimMembers] at plain
  simp only [bind, Except.bind] at plain
  split at plain
  · cases plain
  · split at plain
    · cases plain
    · rename_i first
      exact ⟨first, plain⟩

/-- When every member does its part in filling a state, going through them in order fills it. -/
theorem foldMembers_fills {σ : Type} {take : String → Option (σ → Outline → Except Fault σ)}
    {Filled : σ → List (String × Outline) → σ → Prop} (nil : ∀ p q, Filled p [] q ↔ q = p)
    (cons : ∀ p q name o rest, Filled p ((name, o) :: rest) q ↔
      ∃ next, Takes take p name o next ∧ Filled next rest q)
    {members : List (QuotedText × Outline)} (plain : skimMembers members = .ok ()) (p q : σ) :
    foldMembers take p members = .ok q ↔ ∃ named, Named members named ∧ Filled p named q := by
  induction members generalizing p with
  | nil => simp [foldMembers, named_nil, nil, eq_comm]
  | cons member rest ih =>
    obtain ⟨name, o⟩ := member
    obtain ⟨first, later⟩ := members_plain plain
    simp only [foldMembers_cons _ _ _ _ _ _ first, ih later, named_cons]
    constructor
    · rintro ⟨n, next, read, taken, named, names, filled⟩
      exact ⟨(n, o) :: named, ⟨n, named, read, rfl, names⟩,
        (cons p q n o named).mpr ⟨next, taken, filled⟩⟩
    · rintro ⟨_, ⟨n, named, read, rfl, names⟩, filled⟩
      obtain ⟨next, taken, filled⟩ := (cons p q n o named).mp filled
      exact ⟨n, next, read, taken, named, names, filled⟩

theorem plain_of_named {members : List (QuotedText × Outline)} {named : List (String × Outline)}
    {wanted : String → Bool} {v : Outline} (plain : skimMembers members = .ok ())
    (names : Named members named) (member : v ∈ valuesOf wanted named) : v.skim = .ok () := by
  induction members generalizing named with
  | nil =>
    rw [named_nil.mp names] at member
    cases member
  | cons first rest ih =>
    obtain ⟨name, o⟩ := first
    obtain ⟨n, later, _, rfl, others⟩ := named_cons.mp names
    obtain ⟨here, plain⟩ := members_plain plain
    rw [valuesOf_cons] at member
    split at member
    · rcases List.mem_cons.mp member with rfl | member
      · exact here
      · exact ih plain others member
    · exact ih plain others member

end Json

namespace Json.Outline

/-- An object with readable names. -/
def IsObject (o : Outline) (named : List (String × Outline)) : Prop :=
  ∃ members, o = .object members .closed ∧ Named members named

def NotList (o : Outline) : Prop := ∀ items finish, o ≠ .list items finish

theorem IsObject.unique {o : Outline} {a b : List (String × Outline)} (left : o.IsObject a)
    (right : o.IsObject b) : a = b := by
  obtain ⟨members, rfl, namedA⟩ := left
  obtain ⟨_, same, namedB⟩ := right
  cases same
  exact named_unique namedA namedB

theorem object_plain {members : List (QuotedText × Outline)} {finish : ObjectEnd}
    (plain : (Outline.object members finish).skim = .ok ()) :
    finish = .closed ∧ skimMembers members = .ok () := by
  rw [skim] at plain
  cases inner : skimMembers members with
  | error fault => simp [inner, bind, Except.bind] at plain
  | ok _ =>
    simp only [inner, bind, Except.bind, endOk_eq_ok, and_true] at plain
    refine ⟨?_, rfl⟩
    cases finish <;> simp_all [ObjectEnd.skimFault?, ObjectEnd.fault?]

theorem wrongKind_ne_ok {α : Type} (expected : String) (o : Outline) (a : α) :
    o.wrongKind expected ≠ .ok a := by
  rw [wrongKind]
  split <;> nofun

/-- What is no list is read as a record only if it is an object. -/
theorem decodeRecord_eq_ok {α : Type} {expected : String} {depth : Nat}
    {ofItems : Nat → List Outline → ListEnd → Except Fault (α × List Outline)}
    {ofMembers : Nat → List (QuotedText × Outline) → ObjectEnd → Except Fault α}
    {o : Outline} (deep : ¬ depth ≤ 1) (plain : o.skim = .ok ()) (notList : o.NotList) (a : α) :
    decodeRecord expected depth ofItems ofMembers o = .ok a ↔
      ∃ members, o = .object members .closed ∧ skimMembers members = .ok () ∧
        ofMembers (depth - 1) members .closed = .ok a := by
  cases o with
  | list items finish => exact absurd rfl (notList items finish)
  | object members finish =>
    obtain ⟨rfl, inner⟩ := object_plain plain
    simp [decodeRecord, deep, inner]
  | _ => simp [decodeRecord, wrongKind_ne_ok]

end Json.Outline

namespace SyncInfo

theorem readOnce_taken {α β : Type} {name : String} {seen : Option α} {read : Except Fault α}
    {put : α → β} {holds : β → Prop} :
    (∃ b, (readOnce name seen read).map put = .ok b ∧ holds b) ↔
      seen = none ∧ ∃ a, read = .ok a ∧ holds (put a) := by
  cases seen with
  | some old => simp [readOnce, Except.map]
  | none => cases read <;> simp [readOnce, Except.map]

theorem names_apart : heightName ≠ hashName ∧ heightName ≠ catchingUpName ∧
    hashName ≠ catchingUpName := by decide

/-- Every field of `q` is the one of `p`, filled by the values of its name. -/
structure Filled (depth : Nat) (p : Partial) (named : List (String × Outline)) (q : Partial) :
    Prop where
  height : Fills (readHeight depth) p.height (valuesOf (· == heightName) named) q.height
  hash : Fills decodeText p.hash (valuesOf (· == hashName) named) q.hash
  catchingUp : Fills decodeBool p.catchingUp (valuesOf (· == catchingUpName) named) q.catchingUp

theorem filled_nil (depth : Nat) (p q : Partial) : Filled depth p [] q ↔ q = p := by
  constructor
  · rintro ⟨height, hash, catchingUp⟩
    obtain ⟨h, s, b⟩ := p
    obtain ⟨h', s', b'⟩ := q
    rw [Partial.mk.injEq]
    exact ⟨(fills_nil _).mp height, (fills_nil _).mp hash, (fills_nil _).mp catchingUp⟩
  · rintro rfl
    exact ⟨.inl ⟨rfl, rfl⟩, .inl ⟨rfl, rfl⟩, .inl ⟨rfl, rfl⟩⟩

theorem filled_iff (depth : Nat) (p q : Partial) (named : List (String × Outline)) :
    Filled depth p named q ↔
      Fills (readHeight depth) p.height (valuesOf (· == heightName) named) q.height ∧
      Fills decodeText p.hash (valuesOf (· == hashName) named) q.hash ∧
      Fills decodeBool p.catchingUp (valuesOf (· == catchingUpName) named) q.catchingUp :=
  ⟨fun ⟨height, hash, catchingUp⟩ => ⟨height, hash, catchingUp⟩,
    fun ⟨height, hash, catchingUp⟩ => ⟨height, hash, catchingUp⟩⟩

/-- Taking one member fills its field and leaves the others alone. -/
theorem filled_cons (depth : Nat) (p q : Partial) (name : String) (o : Outline)
    (rest : List (String × Outline)) :
    Filled depth p ((name, o) :: rest) q ↔
      ∃ next, Takes (take depth) p name o next ∧ Filled depth next rest q := by
  obtain ⟨notHash, notFlag, apart⟩ := names_apart
  simp only [filled_iff, valuesOf_cons, beq_iff_eq]
  by_cases height : name = heightName
  · subst height
    simp only [Takes, take, if_true, readOnce_taken, fills_cons, if_neg notHash, if_neg notFlag]
    grind
  by_cases hash : name = hashName
  · subst hash
    simp only [Takes, take, if_true, readOnce_taken, fills_cons, if_neg notHash.symm, if_neg apart]
    grind
  by_cases catchingUp : name = catchingUpName
  · subst catchingUp
    simp only [Takes, take, if_true, readOnce_taken, fills_cons, if_neg notFlag.symm,
      if_neg apart.symm]
    grind
  · simp [Takes, take, height, hash, catchingUp]

theorem foldMembers_eq_ok (depth : Nat) {members : List (QuotedText × Outline)}
    (plain : skimMembers members = .ok ()) (p q : Partial) :
    foldMembers (take depth) p members = .ok q ↔
      ∃ named, Named members named ∧ Filled depth p named q :=
  foldMembers_fills (filled_nil depth) (filled_cons depth) plain p q

/-- A quoted text that stands for these characters. -/
def IsText (o : Outline) (s : String) : Prop := ∃ t : QuotedText, o = .text t ∧ t.decode = .ok s

def IsFlag (o : Outline) (b : Bool) : Prop := o = .bool b

/-- A member that may be left out: what its one value is, or the standard. -/
def AtMostOnce {α : Type} (Is : Outline → α → Prop) (standard : α) (values : List Outline)
    (a : α) : Prop :=
  values = [] ∧ a = standard ∨ ∃ v, values = [v] ∧ Is v a

/-- The members of a sync part, with what they tell. -/
structure Tells (named : List (String × Outline)) (sync : SyncInfo) : Prop where
  height : ∃ v, valuesOf (· == heightName) named = [v] ∧ v.Spells sync.height
  hash : AtMostOnce IsText "" (valuesOf (· == hashName) named) sync.hash
  catchingUp : AtMostOnce IsFlag false (valuesOf (· == catchingUpName) named) sync.catchingUp

theorem decodeText_eq_ok (o : Outline) (s : String) : o.decodeText = .ok s ↔ IsText o s := by
  cases o with
  | text t => simp [decodeText, IsText]
  | _ => simp [decodeText, IsText, wrongKind_ne_ok]

theorem decodeBool_eq_ok (o : Outline) (b : Bool) : o.decodeBool = .ok b ↔ IsFlag o b := by
  cases o with
  | bool value => simp [decodeBool, IsFlag]
  | _ => simp [decodeBool, IsFlag, wrongKind_ne_ok]

theorem AtMostOnce.perm {α : Type} {Is : Outline → α → Prop} {standard a : α}
    {values others : List Outline} (once : AtMostOnce Is standard values a)
    (same : others.Perm values) : AtMostOnce Is standard others a := by
  rcases once with ⟨rfl, standard⟩ | ⟨v, rfl, told⟩
  · exact .inl ⟨List.perm_nil.mp same, standard⟩
  · exact .inr ⟨v, List.perm_singleton.mp same, told⟩

theorem Tells.perm {named others : List (String × Outline)} {sync : SyncInfo}
    (tells : Tells named sync)
    (heights : (valuesOf (· == heightName) others).Perm (valuesOf (· == heightName) named))
    (hashes : (valuesOf (· == hashName) others).Perm (valuesOf (· == hashName) named))
    (flags : (valuesOf (· == catchingUpName) others).Perm (valuesOf (· == catchingUpName) named)) :
    Tells others sync := by
  obtain ⟨⟨v, single, height⟩, hash, catchingUp⟩ := tells
  rw [single] at heights
  exact ⟨⟨v, List.perm_singleton.mp heights, height⟩, hash.perm hashes, catchingUp.perm flags⟩

/-- Only numbers and texts are heights, and they need no depth. -/
theorem readHeight_eq_ok (depth : Nat) (o : Outline) (n : Nat) :
    readHeight depth o = .ok n ↔ o.Spells n := by
  rw [spells_iff depth, readHeight]
  cases o.value depth <;> simp [bind, Except.bind]

theorem fills_required {α : Type} {read : Outline → Except Fault α} {values : List Outline}
    {a : α} : Fills read none values (some a) ↔ ∃ v, values = [v] ∧ read v = .ok a := by
  simp [Fills]

theorem fills_optional {α : Type} {read : Outline → Except Fault α} {Is : Outline → α → Prop}
    (means : ∀ v a, read v = .ok a ↔ Is v a) {values : List Outline} {standard a : α} :
    (∃ filled, Fills read none values filled ∧ filled.getD standard = a) ↔
      AtMostOnce Is standard values a := by
  constructor
  · rintro ⟨filled, ⟨empty, rfl⟩ | ⟨_, v, b, single, readable, rfl⟩, rfl⟩
    · exact .inl ⟨empty, rfl⟩
    · exact .inr ⟨v, single, (means v b).mp readable⟩
  · rintro (⟨empty, rfl⟩ | ⟨v, single, told⟩)
    · exact ⟨none, .inl ⟨empty, rfl⟩, rfl⟩
    · exact ⟨some a, .inr ⟨rfl, v, a, single, (means v a).mpr told, rfl⟩, rfl⟩

theorem tells_iff (depth : Nat) (named : List (String × Outline)) (sync : SyncInfo) :
    Tells named sync ↔ ∃ q, Filled depth ⟨none, none, none⟩ named q ∧
      q.height = some sync.height ∧ q.hash.getD "" = sync.hash ∧
      q.catchingUp.getD false = sync.catchingUp := by
  constructor
  · rintro ⟨⟨v, single, height⟩, hash, catchingUp⟩
    obtain ⟨s, hashFills, hash⟩ := (fills_optional decodeText_eq_ok).mpr hash
    obtain ⟨b, flagFills, catchingUp⟩ := (fills_optional decodeBool_eq_ok).mpr catchingUp
    exact ⟨⟨some sync.height, s, b⟩,
      ⟨fills_required.mpr ⟨v, single, (readHeight_eq_ok depth v _).mpr height⟩, hashFills,
        flagFills⟩, rfl, hash, catchingUp⟩
  · rintro ⟨⟨_, s, b⟩, ⟨height, hash, catchingUp⟩, rfl, hashIs, flagIs⟩
    obtain ⟨v, single, readable⟩ := fills_required.mp height
    exact ⟨⟨v, single, (readHeight_eq_ok depth v _).mp readable⟩,
      (fills_optional decodeText_eq_ok).mp ⟨s, hash, hashIs⟩,
      (fills_optional decodeBool_eq_ok).mp ⟨b, catchingUp, flagIs⟩⟩

theorem ofMembers_eq_ok (depth : Nat) {members : List (QuotedText × Outline)}
    (plain : skimMembers members = .ok ()) (sync : SyncInfo) :
    ofMembers depth members .closed = .ok sync ↔
      ∃ named, Named members named ∧ Tells named sync := by
  have folded := foldMembers_eq_ok depth plain ⟨none, none, none⟩
  rw [ofMembers]
  constructor
  · intro read
    cases result : foldMembers (take depth) ⟨none, none, none⟩ members with
    | error fault => simp [result, bind, Except.bind] at read
    | ok q =>
      simp only [result, bind, Except.bind, ObjectEnd.fault?, endOk] at read
      obtain ⟨named, names, filled⟩ := (folded q).mp result
      split at read
      · cases read
      · rename_i height found
        cases read
        exact ⟨named, names, (tells_iff depth named _).mpr ⟨q, filled, found, rfl, rfl⟩⟩
  · rintro ⟨named, names, tells⟩
    obtain ⟨q, filled, height, hash, catchingUp⟩ := (tells_iff depth named sync).mp tells
    rw [(folded q).mpr ⟨named, names, filled⟩]
    simp only [bind, Except.bind, ObjectEnd.fault?, endOk, height, hash, catchingUp]

theorem decode_eq_ok {depth : Nat} {o : Outline} (deep : ¬ depth ≤ 1) (plain : o.skim = .ok ())
    (notList : o.NotList) (sync : SyncInfo) :
    decode depth o = .ok sync ↔ ∃ named, o.IsObject named ∧ Tells named sync := by
  rw [decode, decodeRecord_eq_ok deep plain notList]
  constructor
  · rintro ⟨members, rfl, inner, read⟩
    obtain ⟨named, names, tells⟩ := (ofMembers_eq_ok _ inner sync).mp read
    exact ⟨named, ⟨members, rfl, names⟩, tells⟩
  · rintro ⟨named, ⟨members, rfl, names⟩, tells⟩
    have inner := (object_plain plain).2
    exact ⟨members, rfl, inner, (ofMembers_eq_ok _ inner sync).mpr ⟨named, names, tells⟩⟩

end SyncInfo

namespace NodeStatus

theorem foldMembers_eq_ok (depth : Nat) {members : List (QuotedText × Outline)}
    (plain : skimMembers members = .ok ()) (held filled : Option SyncInfo) :
    foldMembers (take depth) held members = .ok filled ↔
      ∃ named, Named members named ∧
        Fills (SyncInfo.decode depth) held (valuesOf isSyncName named) filled := by
  have taken (held filled : Option SyncInfo) (name : String) (o : Outline)
      (rest : List (String × Outline)) :
      Fills (SyncInfo.decode depth) held (valuesOf isSyncName ((name, o) :: rest)) filled ↔
        ∃ next, Takes (take depth) held name o next ∧
          Fills (SyncInfo.decode depth) next (valuesOf isSyncName rest) filled := by
    rw [valuesOf_cons]
    cases wanted : isSyncName name with
    | true => simp [Takes, take, wanted, SyncInfo.readOnce_taken, fills_cons]
    | false => simp [Takes, take, wanted]
  exact @foldMembers_fills _ (take depth)
    (fun held named filled => Fills (SyncInfo.decode depth) held (valuesOf isSyncName named) filled)
    (fun _ _ => fills_nil _) taken _ plain held filled

theorem ofMembers_eq_ok (depth : Nat) {members : List (QuotedText × Outline)}
    (plain : skimMembers members = .ok ()) (status : NodeStatus) :
    ofMembers depth members .closed = .ok status ↔ ∃ named part, Named members named ∧
      valuesOf isSyncName named = [part] ∧ SyncInfo.decode depth part = .ok status.sync := by
  have folded := foldMembers_eq_ok depth plain none
  rw [ofMembers]
  constructor
  · intro read
    cases result : foldMembers (take depth) none members with
    | error fault => simp [result, bind, Except.bind] at read
    | ok filled =>
      simp only [result, bind, Except.bind, ObjectEnd.fault?, endOk] at read
      obtain ⟨named, names, fills⟩ := (folded filled).mp result
      split at read
      · cases read
      · cases read
        obtain ⟨part, single, readable⟩ := SyncInfo.fills_required.mp fills
        exact ⟨named, part, names, single, readable⟩
  · rintro ⟨named, part, names, single, readable⟩
    rw [(folded (some status.sync)).mpr
      ⟨named, names, SyncInfo.fills_required.mpr ⟨part, single, readable⟩⟩]
    rfl

/-- The one sync part of a report. -/
def HasPart (root part : Outline) : Prop :=
  ∃ named, root.IsObject named ∧ valuesOf isSyncName named = [part]

/-- A document reports a status: one member is the sync part, and it tells the status. -/
def Reports (root : Outline) (status : NodeStatus) : Prop :=
  ∃ part fields, HasPart root part ∧ part.IsObject fields ∧ SyncInfo.Tells fields status.sync

/-- Neither the document nor a sync part of it is a list. -/
structure NoLists (root : Outline) : Prop where
  document : root.NotList
  parts : ∀ named, root.IsObject named → ∀ part ∈ valuesOf isSyncName named, part.NotList

/-- The sync parts have the same heights, hashes and flags, in whatever order, by either name, and
among whatever other members. -/
def SameReport (root other : Outline) : Prop :=
  ∃ part fields otherPart otherFields,
    HasPart root part ∧ part.IsObject fields ∧
    HasPart other otherPart ∧ otherPart.IsObject otherFields ∧
    ∀ name ∈ [SyncInfo.heightName, SyncInfo.hashName, SyncInfo.catchingUpName],
      (valuesOf (· == name) otherFields).Perm (valuesOf (· == name) fields)

theorem decode_eq_ok {depth : Nat} {root : Outline} (deep : ¬ depth ≤ 2)
    (plain : root.skim = .ok ()) (noLists : NoLists root) (status : NodeStatus) :
    decode depth root = .ok status ↔ Reports root status := by
  have deeper : ¬ depth - 1 ≤ 1 := by omega
  rw [decode, decodeRecord_eq_ok (by omega) plain noLists.document]
  constructor
  · rintro ⟨members, rfl, inner, read⟩
    obtain ⟨named, part, names, single, readable⟩ := (ofMembers_eq_ok _ inner status).mp read
    have object : (Outline.object members .closed).IsObject named := ⟨members, rfl, names⟩
    have member : part ∈ valuesOf isSyncName named := by simp [single]
    obtain ⟨fields, isObject, tells⟩ := (SyncInfo.decode_eq_ok deeper
      (plain_of_named inner names member) (noLists.parts named object part member) _).mp readable
    exact ⟨part, fields, ⟨named, object, single⟩, isObject, tells⟩
  · rintro ⟨part, fields, ⟨named, ⟨members, rfl, names⟩, single⟩, isObject, tells⟩
    have inner := (object_plain plain).2
    have object : (Outline.object members .closed).IsObject named := ⟨members, rfl, names⟩
    have member : part ∈ valuesOf isSyncName named := by simp [single]
    have readable := (SyncInfo.decode_eq_ok deeper (plain_of_named inner names member)
      (noLists.parts named object part member) _).mpr ⟨fields, isObject, tells⟩
    exact ⟨members, rfl, inner,
      (ofMembers_eq_ok _ inner status).mpr ⟨named, part, names, single, readable⟩⟩

theorem ofOutput_eq_ok {bytes : List UInt8} (clean : (documentOf bytes).clean = true)
    (noLists : NoLists (documentOf bytes).root) (status : NodeStatus) :
    ofOutput bytes = .ok status ↔ Reports (documentOf bytes).root status := by
  have deep : ¬ depthLimit ≤ 2 := by decide
  rw [← decode_eq_ok deep (documentOf_skim clean) noLists, ofOutput, decodeOutput, Document.decode]
  cases decode depthLimit (documentOf bytes).root <;> simp [clean]

/-- Documents with the same report give the same status. -/
theorem Reports.same {root other : Outline} {status : NodeStatus} (reports : Reports root status)
    (same : SameReport root other) : Reports other status := by
  obtain ⟨part, fields, ⟨named, object, single⟩, isObject, tells⟩ := reports
  obtain ⟨part', fields', otherPart, otherFields, ⟨named', object', single'⟩, isObject', otherHas,
    otherIs, agree⟩ := same
  cases object.unique object'
  cases single.symm.trans single'
  cases isObject.unique isObject'
  exact ⟨otherPart, otherFields, otherHas, otherIs, tells.perm
    (agree _ (by simp)) (agree _ (by simp)) (agree _ (by simp))⟩

theorem SameReport.noLists {root other : Outline} (same : SameReport root other) :
    NoLists other := by
  obtain ⟨_, _, part, fields, _, _, ⟨named, object, single⟩, ⟨inner, rfl, _⟩, _⟩ := same
  refine ⟨?_, ?_⟩
  · obtain ⟨members, rfl, _⟩ := object
    exact fun _ _ => nofun
  · intro named' object' found member
    cases object.unique object'
    rw [single, List.mem_singleton] at member
    rw [member]
    exact fun _ _ => nofun

/-- How a document is read as a status report. -/
structure ReadsReports (bytes : List UInt8) : Prop where
  /-- It gives the status that it reports, if it reports one. -/
  exact : ∀ status, ofOutput bytes = .ok status ↔ Reports (documentOf bytes).root status
  /-- Otherwise the refusal keeps the text. -/
  refused : (¬ ∃ status, Reports (documentOf bytes).root status) →
    ∃ fault, ofOutput bytes = .error (.decode "node status" (Text.Utf8.lossy bytes) fault)
  /-- Order, the name of the sync part, and other members do not matter. -/
  same : ∀ other, (documentOf other).clean = true →
    SameReport (documentOf bytes).root (documentOf other).root →
      ∀ status, ofOutput bytes = .ok status → ofOutput other = .ok status

theorem readsReports {bytes : List UInt8} (clean : (documentOf bytes).clean = true)
    (noLists : NoLists (documentOf bytes).root) : ReadsReports bytes where
  exact := ofOutput_eq_ok clean noLists
  refused := by
    intro unreported
    cases read : ofOutput bytes with
    | ok status => exact absurd ⟨status, (ofOutput_eq_ok clean noLists status).mp read⟩ unreported
    | error failure =>
      obtain ⟨fault, rfl⟩ := decodeOutput_error read
      exact ⟨fault, rfl⟩
  same := by
    intro other otherClean same status read
    have reports := (ofOutput_eq_ok clean noLists status).mp read
    exact (ofOutput_eq_ok otherClean same.noLists status).mpr (reports.same same)

/-- The bytes of
`{"SyncInfo":{"latest_block_hash":"A0","catching_up":true,"latest_block_height":"7"}}`. -/
def sevenBlocks : List UInt8 :=
  [0x7b, 0x22, 0x53, 0x79, 0x6e, 0x63, 0x49, 0x6e, 0x66, 0x6f, 0x22, 0x3a, 0x7b, 0x22, 0x6c, 0x61,
    0x74, 0x65, 0x73, 0x74, 0x5f, 0x62, 0x6c, 0x6f, 0x63, 0x6b, 0x5f, 0x68, 0x61, 0x73, 0x68, 0x22,
    0x3a, 0x22, 0x41, 0x30, 0x22, 0x2c, 0x22, 0x63, 0x61, 0x74, 0x63, 0x68, 0x69, 0x6e, 0x67, 0x5f,
    0x75, 0x70, 0x22, 0x3a, 0x74, 0x72, 0x75, 0x65, 0x2c, 0x22, 0x6c, 0x61, 0x74, 0x65, 0x73, 0x74,
    0x5f, 0x62, 0x6c, 0x6f, 0x63, 0x6b, 0x5f, 0x68, 0x65, 0x69, 0x67, 0x68, 0x74, 0x22, 0x3a, 0x22,
    0x37, 0x22, 0x7d, 0x7d]

theorem sevenBlocks_reads :
    (documentOf sevenBlocks).clean = true ∧ NoLists (documentOf sevenBlocks).root ∧
      ReadsReports sevenBlocks ∧ ofOutput sevenBlocks = .ok ⟨⟨7, "A0", true⟩⟩ ∧
      Reports (documentOf sevenBlocks).root ⟨⟨7, "A0", true⟩⟩ := by
  have object : (documentOf sevenBlocks).root.IsObject
      [("SyncInfo", .object
        [(⟨sevenBlocks.extract 14 31, .closed⟩, .text ⟨sevenBlocks.extract 34 36, .closed⟩),
          (⟨sevenBlocks.extract 39 50, .closed⟩, .bool true),
          (⟨sevenBlocks.extract 58 77, .closed⟩, .text ⟨sevenBlocks.extract 80 81, .closed⟩)]
        .closed)] := ⟨_, rfl, rfl⟩
  have noLists : NoLists (documentOf sevenBlocks).root := by
    refine ⟨fun _ _ => nofun, ?_⟩
    intro named found part member
    cases object.unique found
    rcases List.mem_singleton.mp member with rfl
    exact fun _ _ => nofun
  have reads : ReadsReports sevenBlocks := readsReports rfl noLists
  exact ⟨rfl, noLists, reads, rfl, (reads.exact _).mp rfl⟩

end NodeStatus
end NodeHarness
