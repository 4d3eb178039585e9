import Mathlib.Logic.Function.Basic
import WikiBackend.Core.Text
import WikiBackend.Db.Schema
import WikiBackend.Relational.Varchar

/-! The SQL statements of the repositories, and what the server does with each. -/

namespace WikiBackend

structure UpsertParams where
  telegramId : Int
  username : Option PyStr
  firstName : Option PyStr
  lastName : Option PyStr
  photoUrl : Option PyStr
  permission : Option PyStr
  now : Instant
  deriving DecidableEq

structure SessionRecord where
  id : UUID
  userId : Int
  expiresAt : Instant
  revokedAt : Option Instant
  deriving DecidableEq

def SessionRow.toRecord (r : SessionRow) : SessionRecord := ⟨r.id, r.userId, r.expiresAt, r.revokedAt⟩

inductive Stmt where
  | upsertUser (p : UpsertParams)
  | userById (id : Int)
  | usersByUsername (pattern : String) (limit : Int)
  | insertSession (id : UUID) (userId : Int) (tokenHash : String) (expiresAt : Instant)
  | sessionByTokenHash (tokenHash : String)
  | updateExpiry (tokenHash : String) (expiresAt now : Instant)
  | revoke (tokenHash : String) (revokedAt : Instant)
  | begin
  | insertSpace (name : String)
  | insertOwner (userId : Int) (spaceId : UUID)
  | commit
  | rollback
  deriving DecidableEq

abbrev Stmt.Rows : Stmt → Type
  | upsertUser _ => Option (UserRow × Bool)
  | userById _ => Option UserRow
  | usersByUsername _ _ => List UserRow
  | insertSession _ _ _ _ => Option SessionRecord
  | sessionByTokenHash _ => Option SessionRecord
  | updateExpiry _ _ _ => Option SessionRecord
  | revoke _ _ => Nat
  | insertSpace _ => UUID
  | begin | insertOwner _ _ | commit | rollback => Unit

/-! ## Column domains -/

def encodable (s : Option PyStr) : Bool := s.all (·.text?.isSome)

def bindable (s : Option PyStr) : Bool := s.all fun s => s.text?.any fun s => !hasNul s

/-- What a column of type `varchar(n)` gets of a parameter that has been sent. -/
def stored (n : Nat) (s : Option PyStr) : Option String :=
  (s.bind (·.text?)).map (Relational.clip n)

@[simp] theorem bindable_text (s : String) : bindable s = !hasNul s := rfl

@[simp] theorem stored_text (n : Nat) (s : String) : stored n s = some (Relational.clip n s) := rfl

def fits (n : Nat) (s : Option PyStr) : Bool := (stored n s).all (·.length ≤ n)

def UpsertParams.texts (p : UpsertParams) : List (Option PyStr) :=
  [p.username, p.firstName, p.lastName, p.photoUrl, p.permission]

def UpsertParams.bindable (p : UpsertParams) : Bool :=
  (-9223372036854775808 ≤ p.telegramId && p.telegramId ≤ 9223372036854775807) &&
    p.texts.all WikiBackend.bindable

def UpsertParams.fits (p : UpsertParams) : Bool :=
  WikiBackend.fits 255 p.username && WikiBackend.fits 255 p.firstName &&
    WikiBackend.fits 255 p.lastName && WikiBackend.fits 1024 p.photoUrl &&
    WikiBackend.fits 64 p.permission

/-! ## Statements on the users table -/

def UpsertParams.insertRow (p : UpsertParams) (id : Int) : UserRow where
  id := id
  telegramId := p.telegramId
  username := stored 255 p.username
  firstName := stored 255 p.firstName
  lastName := stored 255 p.lastName
  photoUrl := stored 1024 p.photoUrl
  permission := stored 64 p.permission
  createdAt := p.now
  updatedAt := p.now
  lastLoginAt := p.now

/-- `ON CONFLICT (telegram_id) DO UPDATE SET ...`: `COALESCE(EXCLUDED.c, users.c)` is `or`. -/
def UpsertParams.updateRow (p : UpsertParams) (r : UserRow) : UserRow :=
  { r with
    username := (stored 255 p.username).or r.username
    firstName := (stored 255 p.firstName).or r.firstName
    lastName := (stored 255 p.lastName).or r.lastName
    photoUrl := (stored 1024 p.photoUrl).or r.photoUrl
    permission := (stored 64 p.permission).or r.permission
    updatedAt := p.now
    lastLoginAt := p.now }

/-- `LIKE` on characters: `%` is any text, `_` any character, a backslash takes the next one as is. -/
def likeMatch : List Char → List Char → Bool
  | [], t => t.isEmpty
  | '%' :: p, t => t.tails.any (likeMatch p)
  | '_' :: p, t =>
    match t with
    | [] => false
    | _ :: t => likeMatch p t
  | '\\' :: e :: p, t =>
    match t with
    | [] => false
    | c :: t => c == e && likeMatch p t
  | e :: p, t =>
    match t with
    | [] => false
    | c :: t => c == e && likeMatch p t

def ilike (fold : Char → Char) (pattern text : String) : Bool :=
  likeMatch (pattern.toList.map fold) (text.toList.map fold)

namespace Database

/-- `nextval('users_id_seq')`; a sequence is not rolled back with its statement. -/
def nextUserId (db : Database) : Database where
  toTables := { db.toTables with usersIdSeq := db.usersIdSeq + 1 }
  constraints := { db.constraints with }

def store {α : Type} (db : Database) (t : Tables) (rows : α) : Except LibError α × Database :=
  match t.enforce with
  | .ok db' => (.ok rows, db')
  | .error e => (.error e, db)

def upsertUser (db : Database) (p : UpsertParams) :
    Except LibError (Option (UserRow × Bool)) × Database :=
  if !p.bindable then (.error (.postgres .dataError), db)
  else if 2147483647 ≤ db.usersIdSeq then (.error (.postgres .sequenceGeneratorLimitExceeded), db)
  else
    -- the default of `id` is computed for every proposed row, before the conflict is found
    let db := db.nextUserId
    if !p.fits then (.error (.postgres .stringDataRightTruncation), db)
    else
      match db.userByTelegramId p.telegramId with
      | some r =>
        db.store
          { db.toTables with users := Keyed.modify (·.telegramId) p.telegramId p.updateRow db.users }
          (some (p.updateRow r, false))
      | none =>
        db.store { db.toTables with users := db.users ++ [p.insertRow db.usersIdSeq] }
          (some (p.insertRow db.usersIdSeq, true))

/-! ## Statements on the sessions table -/

def insertSession (db : Database) (serverNow : Instant) (id : UUID) (userId : Int)
    (tokenHash : String) (expiresAt : Instant) :
    Except LibError (Option SessionRecord) × Database :=
  if !bindable tokenHash || !fits 64 tokenHash then (.error (.postgres .dataError), db)
  else
    let r : SessionRow :=
      ⟨id, userId, Relational.clip 64 tokenHash, expiresAt, none, serverNow, serverNow⟩
    db.store { db.toTables with sessions := db.sessions ++ [r] } (some r.toRecord)

def updateExpiry (db : Database) (tokenHash : String) (expiresAt now : Instant) :
    Except LibError (Option SessionRecord) × Database :=
  let set := fun r : SessionRow => { r with expiresAt := expiresAt, updatedAt := now }
  db.store { db.toTables with sessions := Keyed.modify (·.tokenHash) tokenHash set db.sessions }
    ((db.sessionByHash tokenHash).map fun r => (set r).toRecord)

def revoke (db : Database) (tokenHash : String) (revokedAt : Instant) :
    Except LibError Nat × Database :=
  let set := fun r : SessionRow => { r with revokedAt := some revokedAt, updatedAt := revokedAt }
  db.store { db.toTables with sessions := Keyed.modify (·.tokenHash) tokenHash set db.sessions }
    (db.sessionByHash tokenHash).toList.length

end Database

/-! ## Transactions on the spaces tables -/

structure Tx where
  spaces : List SpaceRow
  memberships : List MembershipRow

def Tx.append (tx tx' : Tx) : Tx := ⟨tx.spaces ++ tx'.spaces, tx.memberships ++ tx'.memberships⟩

def Tables.withTx (t : Tables) (tx : Tx) : Tables :=
  { t with spaces := t.spaces ++ tx.spaces, memberships := t.memberships ++ tx.memberships }

/-- The shared world: the database, the wall clock, the session tokens generated
so far, and the open transaction of each request's connection. -/
structure World where
  db : Database
  clock : Instant
  tokens : List String
  txs : Nat → Option Tx

namespace World

def initial : World := ⟨.empty, 0, [], fun _ => none⟩

def onDb {α : Type} (w : World) (r : Except LibError α × Database) : Except LibError α × World :=
  (r.1, { w with db := r.2 })

def setTx (w : World) (i : Nat) (tx : Option Tx) : World :=
  { w with txs := Function.update w.txs i tx }

/-- An insert by request `i`: checked against the tables its connection sees, and
kept with its transaction, or installed at once outside of one. -/
def insert {α : Type} (w : World) (i : Nat) (rows : Tx) (result : α) : Except LibError α × World :=
  match w.txs i with
  | some tx =>
    match (w.db.withTx (tx.append rows)).enforce with
    | .ok _ => (.ok result, w.setTx i (some (tx.append rows)))
    | .error e => (.error e, w)
  | none => w.onDb (w.db.store (w.db.withTx rows) result)

/-- `COMMIT` installs both inserts or neither; either way the transaction is over. -/
def commit (w : World) (i : Nat) : Except LibError Unit × World :=
  match w.txs i with
  | some tx => (w.setTx i none).onDb (w.db.store (w.db.withTx tx) ())
  | none => (.ok (), w)

end World

structure ServerChoice where
  now : Instant
  uuid : UUID
  order : List UserRow

/-- The rows of a query without `ORDER BY` come in some order. -/
def ServerChoice.arrange (s : ServerChoice) (rows : List UserRow) : List UserRow :=
  if s.order.isPerm rows then s.order else rows

def Database.usersByUsername (db : Database) (fold : Char → Char) (s : ServerChoice)
    (pattern : String) (limit : Int) : Except LibError (List UserRow) :=
  if !bindable pattern then .error (.postgres .characterNotInRepertoire)
  else
    .ok ((s.arrange (db.users.filter fun u => u.username.any (ilike fold pattern))).take limit.toNat)

def Stmt.execute (fold : Char → Char) (s : ServerChoice) (i : Nat) (w : World) :
    (q : Stmt) → Except LibError q.Rows × World
  | .upsertUser p => w.onDb (w.db.upsertUser p)
  | .userById id => (.ok (w.db.userById id), w)
  | .usersByUsername pattern limit => (w.db.usersByUsername fold s pattern limit, w)
  | .insertSession id userId tokenHash expiresAt =>
    w.onDb (w.db.insertSession s.now id userId tokenHash expiresAt)
  | .sessionByTokenHash tokenHash => (.ok ((w.db.sessionByHash tokenHash).map (·.toRecord)), w)
  | .updateExpiry tokenHash expiresAt now => w.onDb (w.db.updateExpiry tokenHash expiresAt now)
  | .revoke tokenHash revokedAt => w.onDb (w.db.revoke tokenHash revokedAt)
  | .begin => (.ok (), w.setTx i (some ⟨[], []⟩))
  | .insertSpace name =>
    if !bindable name || !fits 255 name then (.error (.postgres .dataError), w)
    else w.insert i ⟨[⟨s.uuid, Relational.clip 255 name, none, none⟩], []⟩ s.uuid
  | .insertOwner userId spaceId => w.insert i ⟨[], [⟨userId, spaceId, "owner"⟩]⟩ ()
  | .commit => w.commit i
  | .rollback => (.ok (), w.setTx i none)

/-- A statement that raises before taking effect; a transaction that cannot be
ended is lost with its connection. -/
def Stmt.fail (i : Nat) (w : World) : Stmt → World
  | .commit | .rollback => w.setTx i none
  | _ => w

end WikiBackend
