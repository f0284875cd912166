import FragmentHost.Options.Written
import FragmentHost.Proofs.Identity
import FragmentHost.Proofs.Memory.Admission
import FragmentHost.Proofs.Memory.Atomicity
import FragmentHost.Proofs.Memory.Children
import FragmentHost.Proofs.Memory.Figures
import FragmentHost.Proofs.Memory.Firewall
import FragmentHost.Proofs.Memory.Lineage
import FragmentHost.Proofs.Memory.Obedience
import FragmentHost.Proofs.Memory.Reach
import FragmentHost.Proofs.Memory.Reservations
import FragmentHost.Proofs.Memory.Returns
import FragmentHost.Proofs.Memory.Totals
import FragmentHost.Proofs.Memory.Words
import FragmentHost.Proofs.Failure.Classification
import FragmentHost.Proofs.Options.Layers
import FragmentHost.Proofs.Options.RoundTrip
import FragmentHost.Proofs.Options.Values
import FragmentHost.Proofs.Catalog.Overloads
import FragmentHost.Proofs.Catalog.Resolution
import FragmentHost.Proofs.Profile.Chart
import FragmentHost.Proofs.Profile.Display
import FragmentHost.Proofs.Profile.Listing
import FragmentHost.Proofs.Profile.Nodes
import FragmentHost.Proofs.Profile.Objects
import FragmentHost.Proofs.Profile.Requests
import FragmentHost.Proofs.Host.Configuration
import FragmentHost.Proofs.Host.Firewall
import FragmentHost.Proofs.Host.Forgetting
import FragmentHost.Proofs.Host.Limits
import FragmentHost.Proofs.Host.Metrics
import FragmentHost.Proofs.Host.Operators
import FragmentHost.Proofs.Host.Refusals
import FragmentHost.Proofs.Host.Swaps
import FragmentHost.Proofs.Host.Tunnels
import FragmentHost.Proofs.Host.Words
import FragmentHost.Proofs.Session.Forgetting
import FragmentHost.Proofs.Session.Opening
import FragmentHost.Proofs.Session.Runs

/-!
# The host of plan fragments

A host runs fragments of query plans and gives each of them a context: an allocator below the one of the node,
buffers, a profile, statistics, options, errors that are kept for the end, and tunnels. The definitions are what
runs; `Proofs` is what holds of them, one directory for each part.

* `Memory` is the tree of allocators and `Buffers` the buffers that draw on it. What the budgets promise is
  proved of the tree by itself and then of a host, whose calls ask the tree in turn.
* `Failure`, `Options`, `Catalog` and `Profile` stand by themselves.
* `Host` puts the parts together. Each call writes few of the fields of a host, and what it leaves alone is read
  off that (`Proofs.Host.Writes`). `Session` gives names to what a host hands out.
-/
