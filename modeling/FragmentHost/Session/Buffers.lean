import FragmentHost.Session.Names

/-!
# Commands on pools and buffers
-/

namespace FragmentHost

/-- What can be asked of pools. -/
inductive PoolCommand where
  | make (new allocator owner : String) (defaultSize : Nat)
  | get (pool new : String)
  | getSize (pool new : String) (size : Nat)
  | replace (pool buffer new : String) (size : Nat)
  | size (pool : String)
  | close (pool : String)
  | drop (pool : String)
  deriving DecidableEq, Repr

/-- What can be asked of buffers. -/
inductive BufferCommand where
  | info (buffer : String)
  | release (buffer : String)
  | write (buffer : String) (start : Nat) (bytes : List UInt8)
  | read (buffer : String) (start count : Nat)
  | drop (buffer : String)
  deriving DecidableEq, Repr

namespace Session

/-- Carries out a command on pools. -/
def onPools (s : Session) : PoolCommand → Outcome
  | .make new allocator owner defaultSize =>
    s.find (·.allocators) allocator fun a =>
      let (h, pool) := s.host.openPool owner a.number defaultSize
      ((s.on h).naming fun n => { n with pools := n.pools.put new pool }).done
  | .get pool new => s.find (·.pools) pool fun p => s.handOut new (s.host.getDefault p)
  | .getSize pool new size => s.find (·.pools) pool fun p => s.handOut new (s.host.getBuffer p size)
  | .replace pool buffer new size =>
    s.find (·.buffers) buffer fun b =>
      s.find (·.pools) pool fun p => s.replaceBuffer new p b size
  | .size pool => s.find (·.pools) pool fun p => s.answer (.poolSize (s.host.arena.poolSize p))
  | .close pool => s.find (·.pools) pool fun p => (s.on (s.host.closePool p)).done
  | .drop pool =>
    s.find (·.pools) pool fun _ =>
      (s.naming fun n => { n with pools := n.pools.remove pool }).done

/-- Carries out a command on buffers. -/
def onBuffers (s : Session) : BufferCommand → Outcome
  | .info buffer =>
    s.find (·.buffers) buffer fun b =>
      s.answer (.bufferReport ((s.host.arena.buffer? b).getD default))
  | .release buffer =>
    s.find (·.buffers) buffer fun b =>
      let (h, first) := s.host.releaseBuffer b
      (s.on h).answer (.flag first)
  | .write buffer start bytes =>
    s.find (·.buffers) buffer fun b =>
      s.attempt (((s.host.arena.buffer? b).getD default).write start bytes) fun (written, fits) =>
        (s.on { s.host with arena := s.host.arena.modifyBuffer b fun _ => written }).answer
          (.flag fits)
  | .read buffer start count =>
    s.find (·.buffers) buffer fun b =>
      let found := (s.host.arena.buffer? b).getD default
      s.attempt (found.read start count) fun bytes => s.answer (.bytes found.capacity bytes)
  | .drop buffer =>
    s.find (·.buffers) buffer fun _ =>
      (s.naming fun n => { n with buffers := n.buffers.remove buffer }).done

end Session

end FragmentHost
