import FragmentHost.Host.Tunnels
import FragmentHost.Session.Names

/-!
# Commands on registries, schema trees and tunnel caches
-/

namespace FragmentHost

/-- What can be asked of function registries. -/
inductive RegistryCommand where
  | make (new : String)
  | register (registry : String) (signature : FunctionSignature)
  | size (registry : String)
  | lookup (registry name : String)
  | resolve (registry name : String) (arguments : List String)
  deriving DecidableEq, Repr

/-- What can be asked of schema trees. -/
inductive SchemaCommand where
  | make (new : String)
  /-- Makes the schemas of a path and a table in the last of them. -/
  | add (schema : String) (path : List String) (table : Option String)
  | find (schema path : String)
  | whole (schema : String)
  | same (schema other : String)
  deriving DecidableEq, Repr

/-- What can be asked of tunnel caches. -/
inductive TunnelCommand where
  | make (new : String)
  | get (cache : String) (endpoint : Endpoint)
  | size (cache : String)
  deriving DecidableEq, Repr

namespace Session

/-- Carries out a command on function registries. -/
def onRegistries (s : Session) : RegistryCommand → Outcome
  | .make new =>
    let (h, number) := s.host.addRegistry
    ((s.on h).naming fun n => { n with registries := n.registries.put new number }).done
  | .register registry signature =>
    s.find (·.registries) registry fun r =>
      let h := s.host.registerFunction r signature
      (s.on h).answer (.registrySize (h.registry r).size)
  | .size registry =>
    s.find (·.registries) registry fun r => s.answer (.registrySize (s.host.registry r).size)
  | .lookup registry name =>
    s.find (·.registries) registry fun r => s.answer (.functions ((s.host.registry r).lookup name))
  | .resolve registry name arguments =>
    s.find (·.registries) registry fun r =>
      s.answer (.function ((s.host.registry r).resolve name arguments))

/-- Gives a schema tree to a name. -/
def setSchema (s : Session) (name : String) (t : SchemaTree) : Session :=
  s.naming fun n => { n with schemas := n.schemas.put name t }

/-- Carries out a command on schema trees. -/
def onSchemas (s : Session) : SchemaCommand → Outcome
  | .make new => (s.setSchema new SchemaTree.root).done
  | .add schema path table =>
    s.find (·.schemas) schema fun t =>
      let t := t.add path table
      (s.setSchema schema t).answer (.schema (t.find? path))
  | .find schema path =>
    s.find (·.schemas) schema fun t => s.answer (.schema (t.resolve? path))
  | .whole schema => s.find (·.schemas) schema fun t => s.answer (.schema (some t))
  | .same schema other =>
    s.find (·.schemas) schema fun t => s.find (·.schemas) other fun u => s.answer (.flag (t = u))

/-- The tunnels that a service was asked for. -/
def opened (sources : List TunnelSource) (number : Nat) : Nat :=
  (sources[number]?.elim [] (·.asked)).length

/-- Shows a tunnel cache. -/
def cacheReport (h : Host) (number : Nat) : CacheReport :=
  let cache := h.caches[number]?.getD default
  ⟨cache.tunnels.length, opened h.pools cache.pool⟩

/-- Carries out a command on tunnel caches. -/
def onTunnels (s : Session) : TunnelCommand → Outcome
  | .make new =>
    -- each cache has a pool of its own
    let (h, number) := (s.host.takeIn (.pool Tunnel.numbered)).openCache s.host.pools.length
    ((s.on h).naming fun n => { n with caches := n.caches.put new number }).done
  | .get cache endpoint =>
    s.find (·.caches) cache fun number =>
      let (h, tunnel) := s.host.cachedTunnel number endpoint
      (s.on h).answer (.cachedTunnel (tunnel.getD default) (cacheReport h number))
  | .size cache =>
    s.find (·.caches) cache fun number => s.answer (.cacheSize (cacheReport s.host number))

end Session

end FragmentHost
