import KeyPool.Certificate.Chain
import KeyPool.Console.Arguments
import KeyPool.Store.PoolStatus
import KeyPool.Console.Quoted
import KeyPool.Console.Styled
import KeyPool.Provisioning.Error
import KeyPool.Provisioning.Policy

/-!
What each command prints, how it ends, and what it leaves of the store.
-/

namespace KeyPool.Console

inductive Failure where
  /-- The settings cannot be read. -/
  | settings (error : ProvisioningError)
  | store (error : StoreError)
  | chain (error : ChainError)
  /-- There are no settings at the path, and no store is named either. -/
  | noStore (config : String)
  | clearUnconfirmed
  | keyNotFound (id : Int)
  deriving DecidableEq

namespace Failure

def invalidInput (reason : String) : String := "InvalidInput(" ++ Quoted.quote reason ++ ")"

def describe : Failure → String
  | settings e => "Provisioning(" ++ Quoted.quote e.message ++ ")"
  | store e => "Store(" ++ Quoted.quote e.message ++ ")"
  | chain e => "Pki(" ++ Quoted.quote e.message ++ ")"
  | noStore config => invalidInput (config ++ " not found and no --db given")
  | clearUnconfirmed => invalidInput "clearing the key store is irreversible; pass --yes"
  | keyNotFound id => "KeyNotFound(" ++ toString id ++ ")"

end Failure

inductive Ending where
  | success
  | failed (failure : Failure)
  | misused
  | crashed (cause : Crash)
  deriving DecidableEq

def Ending.code : Ending → Nat
  | success => 0
  | failed _ => 1
  | misused => 2
  | crashed _ => 101

structure Context where
  store : Store
  /-- Whether the store may only be read. -/
  readOnly : Bool
  /-- The path of the store, as it was given. -/
  path : String
  policy : Policy
  now : Timestamp

structure Report where
  lines : List Line
  ending : Ending
  store : Store

namespace Report

def done (store : Store) (lines : List Line) : Report := ⟨lines, .success, store⟩

def failed (store : Store) (lines : List Line) (failure : Failure) : Report :=
  ⟨lines, .failed failure, store⟩

end Report

/-! ## Pools -/

/-- A pool that is not filled stands out. -/
def poolLine (policy : Policy) (pool : PoolStatus) : Line :=
  Line.styled (if pool.unassigned < policy.extraKeys then .yellow else .green) <|
    "  " ++ pool.component ++ ": 总计 " ++ toString pool.total ++ " / 已分配 "
      ++ toString pool.assigned ++ " / 空闲 " ++ toString pool.unassigned ++ " / 过期 "
      ++ toString pool.expired

def statusReport (c : Context) : Report :=
  let head := [
    Line.bold .cyan ("密钥库: " ++ c.path),
    Line.plain ("目标空闲密钥数: " ++ toString c.policy.extraKeys),
    Line.plain ""]
  match PoolStatus.ofStore c.store c.now with
  | .error e => .failed c.store head (.store e)
  | .ok [] => .done c.store (head ++ [Line.styled .yellow "密钥库为空"])
  | .ok pools => .done c.store (head ++ pools.map (poolLine c.policy))

/-! ## Keys -/

/-- Text filled with spaces on the right. -/
def padRight (width : Nat) (text : String) : String :=
  text ++ String.ofList (List.replicate (width - text.length) ' ')

/-- Whether a key is expired, and else whose it is. -/
def stateOf (key : AttestationKey) (now : Timestamp) : Piece :=
  if key.isExpiredAt now then .styled ⟨.red, false⟩ "expired"
  else
    match key.assignment with
    | some a =>
      .styled ⟨.yellow, false⟩
        ("assigned to " ++ toString a.client.toInt ++ "/" ++ toString a.irpc.toInt)
    | none => .styled ⟨.green, false⟩ "unassigned"

def keyLine (now : Timestamp) (key : AttestationKey) : Line :=
  [.plain ("  #" ++ padRight 5 (toString (key.id.getD 0)) ++ " " ++ Bytes.fingerprint key.publicKey
      ++ "  " ++ key.component ++ "  expires " ++ key.expiration.display ++ "  "),
    stateOf key now]

def listReport (c : Context) (component : Option String) : Report :=
  match c.store.keys.result with
  | .error e => .failed c.store [] (.store e)
  | .ok keys =>
    let keys := keys.filter fun key => component.all (key.component = ·)
    .done c.store <|
      Line.bold .cyan ("共 " ++ toString keys.length ++ " 个密钥") :: keys.map (keyLine c.now)

def assignmentLine : Option Assignment → Line
  | some a =>
    Line.plain <| "  分配: client " ++ toString a.client.toInt ++ " / irpc "
      ++ toString a.irpc.toInt ++ " (" ++ a.assignedAt.display ++ ")"
  | none => [.plain "  分配: ", .styled ⟨.green, false⟩ "未分配"]

def keyLines (id : Int) (key : AttestationKey) : List Line := [
  Line.bold .cyan ("密钥 #" ++ toString id),
  Line.plain ("  组件: " ++ key.component),
  Line.plain ("  公钥: " ++ Bytes.hex key.publicKey),
  Line.plain ("  密钥句柄: " ++ Bytes.fingerprint key.keyBlob ++ "…"),
  Line.plain ("  过期时间: " ++ key.expiration.display),
  assignmentLine key.assignment]

def certificateLines (index : Nat) (certificate : Certificate) : List Line :=
  let i := certificate.info
  [Line.plain ("  [" ++ toString index ++ "] " ++ i.subject),
    Line.plain ("      颁发者: " ++ i.issuer),
    Line.plain ("      有效期: " ++ i.notBefore.display ++ " → " ++ i.notAfter.display),
    Line.plain ("      算法: " ++ i.signatureAlgorithm)]

def chainLines (chain : List Certificate) : List Line :=
  [Line.plain "", Line.styled .cyan ("证书链 (" ++ toString chain.length ++ " 个证书):")]
    ++ (chain.zipIdx.flatMap fun (certificate, index) => certificateLines index certificate)
    ++ [match Certificate.checkChain chain with
      | .ok () => Line.bold .green "✓ 证书链验证通过"
      | .error e => Line.bold .red ("✗ 证书链验证失败: " ++ e.message)]

/-- A key whose chain cannot be read is still shown itself. -/
def detailReport (c : Context) (id : Int) : Report :=
  match c.store.keys.result with
  | .error e => .failed c.store [] (.store e)
  | .ok keys =>
    match keys.find? (·.id = some id) with
    | none => .failed c.store [] (.keyNotFound id)
    | some key =>
      match Certificate.readChain key.chain with
      | .error e => .failed c.store (keyLines id key) (.chain e)
      | .ok chain => .done c.store (keyLines id key ++ chainLines chain)

/-! ## Changes -/

/-- Deletes keys, if the store may be changed, and says how many went. -/
def deletionReport (c : Context) (delete : Store → Store.Outcome Nat) (say : Nat → Line) : Report :=
  let o := if c.readOnly then c.store.refuse .readOnly else delete c.store
  match o.result with
  | .error e => .failed o.store [] (.store e)
  | .ok deleted => .done o.store [say deleted]

def clearReport (c : Context) (confirmed : Bool) : Report :=
  if confirmed then
    deletionReport c Store.clear fun deleted =>
      Line.bold .green ("已删除 " ++ toString deleted ++ " 个密钥")
  else .failed c.store [] .clearUnconfirmed

/-- Deletes the keys that expire within some seconds, or within what the policy says. -/
def purgeReport (c : Context) (withinSeconds : Option Nat) : Report :=
  match c.now.move (withinSeconds.elim c.policy.lookahead Policy.horizon) with
  | .error cause => ⟨[], .crashed cause, c.store⟩
  | .ok cutoff =>
    deletionReport c (·.expire cutoff) fun deleted =>
      Line.bold .green <|
        "已删除 " ++ toString deleted ++ " 个在 " ++ cutoff.display ++ " 前过期的密钥"

def badWindowReport (c : Context) : Report :=
  match c.store.lastWindow.result with
  | .error e => .failed c.store [] (.store e)
  | .ok none => .done c.store [Line.styled .yellow "尚未处理任何不良证书窗口"]
  | .ok (some record) =>
    .done c.store [
      Line.bold .cyan "最近处理的不良证书窗口:",
      Line.plain ("  开始: " ++ record.window.start.display),
      Line.plain ("  结束: " ++ record.window.stop.display),
      Line.plain ("  版本: " ++ toString record.version.toNat)]

def Command.report (command : Command) (c : Context) : Report :=
  match command with
  | status => statusReport c
  | list component => listReport c component
  | detail id => detailReport c id
  | clear confirmed => clearReport c confirmed
  | purgeExpiring withinSeconds => purgeReport c withinSeconds
  | badWindow => badWindowReport c

end KeyPool.Console
