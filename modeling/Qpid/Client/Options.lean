import Mathlib.Data.List.Dedup
import Mathlib.Data.List.Infix

/-!
The options of a client connection (`qpid::client::amqp0_10::ConnectionImpl`): the fields
`setOption` writes, the list of reconnect urls and its merges, and the constructor.

`qpid::types::Variant` is not in the repository: its conversions are a parameter, `none` where
a conversion throws. A call that throws leaves the object as far as the call got, since the
caller of `setOption` may catch the exception and go on using the connection.
-/

namespace Qpid.Client.Options

/-- The conversions of `qpid::types::Variant` that `setOption` uses, `asList` being `asList()` of
a value whose `getType()` is `VAR_LIST`. The unsigned settings share one conversion: their widths
are declared in `ConnectionSettings`, which is not in the repository. -/
structure Conversions (V : Type) where
  asBool : V → Option Bool
  asInt : V → Option Int
  asUint : V → Option Nat
  asString : V → Option String
  asList : V → Option (List V)

/-- The exceptions of the connection's calls; `invalidUrl` is what `Url url(*i)` throws, and
`openFailure` and `sessionFailure` an exception other than those `tryConnect` and `resetSessions`
catch, from `connection.open` and from `connection.newSession`. -/
inductive Error where
  | messagingException (what : String)
  | invalidConversion
  | transportFailure (what : String)
  | targetCapacityExceeded (what : String)
  | invalidUrl
  | openFailure (what : String)
  | sessionFailure (what : String)
  deriving DecidableEq

/-- The fields of `qpid::client::ConnectionSettings` that `setOption` and `tryConnect` write. -/
structure Settings where
  username : String
  password : String
  mechanism : String
  service : String
  minSsf : Nat
  maxSsf : Nat
  heartbeat : Nat
  tcpNoDelay : Bool
  locale : String
  maxChannels : Nat
  maxFrameSize : Nat
  bounds : Nat
  protocol : String
  sslCertName : String
  deriving DecidableEq

/-- The fields of `ConnectionImpl` that the options and `connect` read and write. -/
structure ConnectionImpl where
  replaceUrls : Bool
  urls : List String
  settings : Settings
  reconnect : Bool
  timeout : Int
  limit : Int
  minReconnectInterval : Int
  maxReconnectInterval : Int
  retries : Int
  reconnectOnLimitExceeded : Bool
  deriving DecidableEq

/-- `merge(value, list)`: appends `value` unless the list has it. -/
def merge (value : String) (list : List String) : List String :=
  if value ∈ list then list else list ++ [value]

/-- The loop of `mergeUrls` over the known-hosts' `str()`, and `merge(from, to)` once every
element of the Variant list has converted. -/
def mergeAll (values list : List String) : List String :=
  values.foldl (fun list value => merge value list) list

/-- `merge(const Variant::List& from, to)`: an element whose `asString()` throws ends the merge,
with the elements before it merged. -/
def mergeVariants {V : Type} (conv : Conversions V) : List V → List String → List String × Option Error
  | [], list => (list, none)
  | v :: rest, list =>
    match conv.asString v with
    | some value => mergeVariants conv rest (merge value list)
    | none => (list, some .invalidConversion)

inductive OptionName where
  | reconnect
  | reconnectTimeout
  | reconnectLimit
  | reconnectInterval
  | reconnectIntervalMin
  | reconnectIntervalMax
  | reconnectUrlsReplace
  | reconnectUrls
  | username
  | password
  | saslMechanism
  | saslService
  | saslMinSsf
  | saslMaxSsf
  | heartbeat
  | tcpNodelay
  | locale
  | maxChannels
  | maxFrameSize
  | bounds
  | transport
  | sslCertName
  | reconnectOnLimitExceeded
  deriving DecidableEq

/-- The chain of name tests of `setOption`, in the source's order. -/
def optionNamed (name : String) : Option OptionName :=
  if name == "reconnect" then some .reconnect
  else if name == "reconnect-timeout" || name == "reconnect_timeout" then some .reconnectTimeout
  else if name == "reconnect-limit" || name == "reconnect_limit" then some .reconnectLimit
  else if name == "reconnect-interval" || name == "reconnect_interval" then some .reconnectInterval
  else if name == "reconnect-interval-min" || name == "reconnect_interval_min" then
    some .reconnectIntervalMin
  else if name == "reconnect-interval-max" || name == "reconnect_interval_max" then
    some .reconnectIntervalMax
  else if name == "reconnect-urls-replace" || name == "reconnect_urls_replace" then
    some .reconnectUrlsReplace
  else if name == "reconnect-urls" || name == "reconnect_urls" then some .reconnectUrls
  else if name == "username" then some .username
  else if name == "password" then some .password
  else if name == "sasl-mechanism" || name == "sasl_mechanism" ||
      name == "sasl-mechanisms" || name == "sasl_mechanisms" then some .saslMechanism
  else if name == "sasl-service" || name == "sasl_service" then some .saslService
  else if name == "sasl-min-ssf" || name == "sasl_min_ssf" then some .saslMinSsf
  else if name == "sasl-max-ssf" || name == "sasl_max_ssf" then some .saslMaxSsf
  else if name == "heartbeat" then some .heartbeat
  else if name == "tcp-nodelay" || name == "tcp_nodelay" then some .tcpNodelay
  else if name == "locale" then some .locale
  else if name == "max-channels" || name == "max_channels" then some .maxChannels
  else if name == "max-frame-size" || name == "max_frame_size" then some .maxFrameSize
  else if name == "bounds" then some .bounds
  else if name == "transport" then some .transport
  else if name == "ssl-cert-name" || name == "ssl_cert_name" then some .sslCertName
  else if name == "x-reconnect-on-limit-exceeded" || name == "x_reconnect_on_limit_exceeded" then
    some .reconnectOnLimitExceeded
  else none

namespace ConnectionImpl

/-- The members the constructor initialises, with the settings `ConnectionSettings` starts from. -/
def initial (settings : Settings) : ConnectionImpl :=
  ⟨false, [], settings, false, -1, -1, 3, 60, 0, true⟩

/-- An assignment from a converted value; a conversion that throws assigns nothing. -/
def assign {α : Type} (c : ConnectionImpl) (converted : Option α) (set : α → ConnectionImpl) :
    ConnectionImpl × Option Error :=
  match converted with
  | some a => (set a, none)
  | none => (c, some .invalidConversion)

def withSettings (c : ConnectionImpl) (settings : Settings) : ConnectionImpl :=
  { c with settings := settings }

/-- The `reconnect-urls` branch of `setOption`: `urls.clear()` in replace mode, then the merge of
a list value or of a single string. -/
def setUrls {V : Type} (c : ConnectionImpl) (conv : Conversions V) (value : V) :
    ConnectionImpl × Option Error :=
  let list := if c.replaceUrls then [] else c.urls
  match conv.asList value with
  | some values =>
    let merged := mergeVariants conv values list
    ({ c with urls := merged.1 }, merged.2)
  | none =>
    match conv.asString value with
    | some url => ({ c with urls := merge url list }, none)
    | none => ({ c with urls := list }, some .invalidConversion)

/-- The branch of `setOption` that a recognised name selects. -/
def apply {V : Type} (c : ConnectionImpl) (conv : Conversions V) : OptionName → V →
    ConnectionImpl × Option Error
  | .reconnect, value => c.assign (conv.asBool value) fun b => { c with reconnect := b }
  | .reconnectTimeout, value => c.assign (conv.asInt value) fun t => { c with timeout := t }
  | .reconnectLimit, value => c.assign (conv.asInt value) fun l => { c with limit := l }
  | .reconnectInterval, value => c.assign (conv.asInt value) fun i =>
    { c with minReconnectInterval := i, maxReconnectInterval := i }
  | .reconnectIntervalMin, value =>
    c.assign (conv.asInt value) fun i => { c with minReconnectInterval := i }
  | .reconnectIntervalMax, value =>
    c.assign (conv.asInt value) fun i => { c with maxReconnectInterval := i }
  | .reconnectUrlsReplace, value => c.assign (conv.asBool value) fun b => { c with replaceUrls := b }
  | .reconnectUrls, value => c.setUrls conv value
  | .username, value =>
    c.assign (conv.asString value) fun s => c.withSettings { c.settings with username := s }
  | .password, value =>
    c.assign (conv.asString value) fun s => c.withSettings { c.settings with password := s }
  | .saslMechanism, value =>
    c.assign (conv.asString value) fun s => c.withSettings { c.settings with mechanism := s }
  | .saslService, value =>
    c.assign (conv.asString value) fun s => c.withSettings { c.settings with service := s }
  | .saslMinSsf, value =>
    c.assign (conv.asUint value) fun n => c.withSettings { c.settings with minSsf := n }
  | .saslMaxSsf, value =>
    c.assign (conv.asUint value) fun n => c.withSettings { c.settings with maxSsf := n }
  | .heartbeat, value =>
    c.assign (conv.asUint value) fun n => c.withSettings { c.settings with heartbeat := n }
  | .tcpNodelay, value =>
    c.assign (conv.asBool value) fun b => c.withSettings { c.settings with tcpNoDelay := b }
  | .locale, value =>
    c.assign (conv.asString value) fun s => c.withSettings { c.settings with locale := s }
  | .maxChannels, value =>
    c.assign (conv.asUint value) fun n => c.withSettings { c.settings with maxChannels := n }
  | .maxFrameSize, value =>
    c.assign (conv.asUint value) fun n => c.withSettings { c.settings with maxFrameSize := n }
  | .bounds, value =>
    c.assign (conv.asUint value) fun n => c.withSettings { c.settings with bounds := n }
  | .transport, value =>
    c.assign (conv.asString value) fun s => c.withSettings { c.settings with protocol := s }
  | .sslCertName, value =>
    c.assign (conv.asString value) fun s => c.withSettings { c.settings with sslCertName := s }
  | .reconnectOnLimitExceeded, value =>
    c.assign (conv.asBool value) fun b => { c with reconnectOnLimitExceeded := b }

/-- `setOption(name, value)`: the object after the call and the exception it threw. -/
def setOption {V : Type} (c : ConnectionImpl) (conv : Conversions V) (name : String) (value : V) :
    ConnectionImpl × Option Error :=
  match optionNamed name with
  | some option => c.apply conv option value
  | none => (c, some (.messagingException ("Invalid option: " ++ name ++ " not recognised")))

/-- `setOptions`: the options in the map's order, up to the first that throws. -/
def setOptions {V : Type} (c : ConnectionImpl) (conv : Conversions V) :
    List (String × V) → ConnectionImpl × Option Error
  | [] => (c, none)
  | (name, value) :: rest =>
    match c.setOption conv name value with
    | (c', none) => c'.setOptions conv rest
    | thrown => thrown

/-- `mergeUrls(more)`, given the `str()` of each known host. -/
def mergeUrls (c : ConnectionImpl) (more : List String) : ConnectionImpl :=
  { c with urls := mergeAll more c.urls }

end ConnectionImpl

open ConnectionImpl in
/-- The constructor: the options, then `urls.insert(urls.begin(), url)`; an option that throws
leaves no object. -/
def create {V : Type} (conv : Conversions V) (settings : Settings) (url : String)
    (options : List (String × V)) : Except Error ConnectionImpl :=
  match (initial settings).setOptions conv options with
  | (c, none) => .ok { c with urls := url :: c.urls }
  | (_, some e) => .error e

end Qpid.Client.Options
