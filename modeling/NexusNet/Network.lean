import NexusNet.AuthKeys
/-!
# Network — service messages, addresses and network errors

The messages of `service_protocol.rs`, multiaddresses, `NetworkError`, and how the actor words the failures of a service
request.
-/
namespace NexusNet

/-- A peer id, as its bytes. -/
abbrev PeerId := Bytes

/-- The components of a multiaddress that are told apart. -/
inductive Protocol where
  | ip4 (addr : UInt32)
  | ip6 (addr : BitVec 128)
  | p2p (peer : PeerId)
  | p2pCircuit
  | other (text : String)
deriving DecidableEq

abbrev Multiaddr := List Protocol

def isCircuit (addr : Multiaddr) : Bool := addr.any (fun p => p == .p2pCircuit)

def extractPeerIdFromMultiaddr : Multiaddr → Option PeerId
  | [] => none
  | .p2p peer :: _ => some peer
  | _ :: rest => extractPeerIdFromMultiaddr rest

structure Request where
  service : String
  payload : Bytes
deriving DecidableEq

structure Response where
  success : Bool
  data : Bytes
deriving DecidableEq

inductive NetworkError where
  | actorGone
  | disabled
  | build (reason : String)
  | kad (reason : String)
  | request (reason : String)
  | transport (reason : String)
  | reloaded
deriving DecidableEq

def NetworkError.text : NetworkError → String
  | .actorGone   => "network actor is gone"
  | .disabled    => "protocol disabled by config"
  | .build e     => "swarm build failed: " ++ e
  | .kad e       => "kademlia error: " ++ e
  | .request e   => "request failed: " ++ e
  | .transport e => "transport error: " ++ e
  | .reloaded    => "cancelled by network reload"

def requestTooLargeError (wireLen limit : Nat) (pq : Bool) : NetworkError :=
  .request ("request too large: " ++ toString wireLen ++ " bytes > services.dispatcher.max_request_bytes (" ++
    toString limit ++ " bytes)" ++ if pq then "; PQ encrypted envelope overhead is included" else "")

def serviceReqProtocol : String := "/oahd/service_req/1.0.0"
def serviceReqPqProtocol : String := "/oahd/service_req/2.0.0"
/-- `REQUEST_TIMEOUT`, in seconds. -/
def requestTimeoutSecs : Nat := 30

/-- The kinds of `io::Error` that are told apart. -/
inductive IoKind where
  | unexpectedEof
  | invalidData
  | unsupported
  | other
deriving DecidableEq

inductive OutboundFailure where
  | dialFailure
  | timeout
  | connectionClosed
  | unsupportedProtocols
  | io (kind : IoKind) (text : String)
deriving DecidableEq

/-- `describe_outbound_failure`; `peer` is the displayed peer id. -/
def describeOutboundFailure (pq : Bool) (peer protocol : String) (wireLen : Option Nat) : OutboundFailure → String
  | .io .unexpectedEof _ =>
    if pq then
      "对端 " ++ peer ++ " 未返回响应就关闭了 PQ 请求流（可能原因：对端缺少 PQ 密钥、PQ 密钥/身份不匹配、" ++
        "请求超过对端 max_request_bytes 或对端内部错误" ++ sizeHint ++ "）"
    else
      "对端 " ++ peer ++ " 未返回响应就关闭了请求流（可能原因：请求超过对端 max_request_bytes、被对端拒绝或对端内部错误" ++
        sizeHint ++ "）"
  | .io .invalidData e | .io .unsupported e =>
    "对端 " ++ peer ++ " 响应解析失败（响应可能被截断、超过 max_response_bytes 或协议版本不兼容）: " ++ e
  | .io .other e => "对端 " ++ peer ++ " 请求流 I/O 错误: " ++ e
  | .timeout => "对端 " ++ peer ++ " 响应超时（" ++ toString requestTimeoutSecs ++ "s）"
  | .connectionClosed => "对端 " ++ peer ++ " 在返回响应前关闭了连接"
  | .unsupportedProtocols => "对端 " ++ peer ++ " 不支持协议 " ++ protocol
  | .dialFailure => "无法与对端 " ++ peer ++ " 建立连接"
where
  sizeHint : String := (wireLen.map (fun n => "；本端请求 " ++ toString n ++ " 字节")).getD ""

end NexusNet
