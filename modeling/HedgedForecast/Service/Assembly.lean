import HedgedForecast.Provider.Adapter
import HedgedForecast.Provider.Chain
import HedgedForecast.Publisher.Webhook
import HedgedForecast.Service

/-! # Services from settings

The settings determine all parts of a service. Without a usable provider there is none, and the
providers have to make a chain.
-/

namespace HedgedForecast.Service

/-- Why settings give no service. -/
inductive AssemblyFailure where
  | noProviders
  | noChain (failure : Failure)
  deriving DecidableEq, Repr

/-- The wording of such a failure. -/
def AssemblyFailure.message : AssemblyFailure → String
  | noProviders => "No forecast providers are enabled"
  | noChain _ => "Invalid provider chain"

/-- The wording of what is behind it. -/
def AssemblyFailure.cause? : AssemblyFailure → Option String
  | noProviders => none
  | noChain failure => some failure.message

/-- The networks that a service sends its messages over. -/
structure Networks where
  /-- The network to the provider behind an adapter. -/
  behind : Adapter → Web.Network
  notices : Web.Network

/-- The same for everybody, without changes. -/
def Networks.steady (transport : Web.Transport) : Networks where
  behind _ := .steady transport
  notices := .steady transport

/-- The service that settings describe, begun at a moment, whatever its providers are. -/
def new (networks : Networks) (startedAt : Moment) (settings : Settings) : Service where
  cache := Cache.empty settings.cache.maxEntries.toNat
  hedger := {
    threshold := settings.lookup.primaryMaxDuration.toNat
    providers := (Adapter.ofSettings settings.providers).map fun adapter =>
      adapter.providerOver (networks.behind adapter) }
  publisher :=
    Publisher.make settings.publisher.queueCapacity.toNat settings.publisher.publishTimeout.toNat
      (Webhook.sink networks.notices settings.publisher.webhookUrl)
  policy := Policy.ofSettings settings.cache
  requestTimeout := settings.lookup.requestTimeout.toNat
  startedAt

/-- That service, if it has providers and they make a chain. -/
def assemble (networks : Networks) (startedAt : Moment) (settings : Settings) :
    Except AssemblyFailure Service :=
  match Adapter.ofSettings settings.providers with
  | [] => .error .noProviders
  | adapters =>
    match ProviderChain.make (adapters.map Adapter.name) with
    | .error failure => .error (.noChain failure)
    | .ok _ => .ok (new networks startedAt settings)

/-- The service that settings describe, begun at a moment, over a network without changes. -/
def ofSettings (transport : Web.Transport) (startedAt : Moment) (settings : Settings) :
    Except AssemblyFailure Service :=
  assemble (.steady transport) startedAt settings

end HedgedForecast.Service
