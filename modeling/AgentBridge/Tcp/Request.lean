import AgentBridge.Http.Requests

/-! The requests of the TCP transport, one JSON object a line, tagged by its operation. -/

namespace AgentBridge.Tcp
open Decode

inductive Req
  | auth (token : Text)
  | ping
  | register (agentKey displayName : Text) (kind : AgentKind) (host : Option Text) (metadata : Json)
  | listChannels
  | createChannel (slug topic createdBy : Text)
  | resolve (query createdBy : Text) (threshold : Option Float32)
  | search (query : Text) (limit : Nat)
  | join (channel agentKey : Text) (role : MemberRole)
  | leave (channel agentKey : Text)
  | members (channel : Text)
  | post (channel sender content : Text) (role : Role) (metadata : Json)
  | history (channel : Text) (since : Option Nat)
  | subscribe (channel : Text) (agentKey : Option Text) (since : Option Nat)
  | getContext (channel : Text) (key : Option Text)
  | setContext (channel key : Text) (value : Json) (updatedBy : Text)

namespace Req
variable (env : Http.Env)

/-- The members of each operation besides its tag. -/
def fields : List (String × (Json → Option Req)) := [
  ("auth", record 1 fun s => do
    return auth (← s.required 0 "token" Json.asStr)),
  ("ping", record 0 fun _ => some ping),
  ("register", record 5 fun s => do
    return register (← s.required 0 "agent_key" Json.asStr) (← s.defaulted 1 "display_name" [] Json.asStr)
      (← s.defaulted 2 "kind" .other AgentKind.read) (← s.defaulted 3 "host" none (nullable Json.asStr))
      (← s.defaulted 4 "meta" .null generic)),
  ("list_channels", record 0 fun _ => some listChannels),
  ("create_channel", record 3 fun s => do
    return createChannel (← s.required 0 "slug" Json.asStr) (← s.defaulted 1 "topic" [] Json.asStr)
      (← s.defaulted 2 "created_by" [] Json.asStr)),
  ("resolve", record 3 fun s => do
    return resolve (← s.required 0 "query" Json.asStr) (← s.defaulted 1 "created_by" [] Json.asStr)
      (← s.defaulted 2 "threshold" none (nullable (Http.readF32 env)))),
  ("search", record 2 fun s => do
    return search (← s.required 0 "query" Json.asStr) (← s.defaulted 1 "limit" 10 (uint 64))),
  ("join", record 3 fun s => do
    return join (← s.required 0 "channel" Json.asStr) (← s.required 1 "agent_key" Json.asStr)
      (← s.defaulted 2 "role" .member MemberRole.read)),
  ("leave", record 2 fun s => do
    return leave (← s.required 0 "channel" Json.asStr) (← s.required 1 "agent_key" Json.asStr)),
  ("members", record 1 fun s => do
    return members (← s.required 0 "channel" Json.asStr)),
  ("post", record 5 fun s => do
    return post (← s.required 0 "channel" Json.asStr) (← s.required 1 "from" Json.asStr)
      (← s.required 2 "content" Json.asStr) (← s.defaulted 3 "role" .user Role.read)
      (← s.defaulted 4 "meta" .null generic)),
  ("history", record 2 fun s => do
    return history (← s.required 0 "channel" Json.asStr) (← s.defaulted 1 "since" none (nullable (uint 64)))),
  ("subscribe", record 3 fun s => do
    return subscribe (← s.required 0 "channel" Json.asStr) (← s.defaulted 1 "agent_key" none (nullable Json.asStr))
      (← s.defaulted 2 "since" none (nullable (uint 64)))),
  ("get_context", record 2 fun s => do
    return getContext (← s.required 0 "channel" Json.asStr) (← s.defaulted 1 "key" none (nullable Json.asStr))),
  ("set_context", record 4 fun s => do
    return setContext (← s.required 0 "channel" Json.asStr) (← s.required 1 "key" Json.asStr)
      (← s.required 2 "value" generic) (← s.defaulted 3 "updated_by" [] Json.asStr))]

def ofTag (tag : Text) (content : Json) : Option Req :=
  ((fields env).find? fun f => f.1.toList = tag).bind fun f => f.2 content

/-- The tag comes as the member `op` of an object, or first in an array. -/
def read : Json → Option Req
  | .obj entries => do
    let tag ← (Source.members entries).required 0 "op" Json.asStr
    ofTag env tag (.obj (entries.filter fun e => e.1 ≠ "op".toList))
  | .arr (.str tag :: items) => ofTag env tag (.arr items)
  | _ => none

end Req
end AgentBridge.Tcp
