import LuaClasses.Main
import LuaClasses.Watch
import LuaClasses.Proofs.Coherence
import LuaClasses.Proofs.Lineage
import LuaClasses.Proofs.Members
import LuaClasses.Proofs.Guarded
import LuaClasses.Proofs.Simulation
import LuaClasses.Proofs.Relation
import LuaClasses.Proofs.Decision
import LuaClasses.Proofs.Agreement
import LuaClasses.Proofs.Session
import LuaClasses.Proofs.Unions
import LuaClasses.Proofs.Lookup
import LuaClasses.Proofs.Walk
import LuaClasses.Proofs.Persistence
import LuaClasses.Proofs.References
import LuaClasses.Proofs.Grammar
import LuaClasses.Proofs.RoundTrip
import LuaClasses.Proofs.Display
import LuaClasses.Proofs.Registration
import LuaClasses.Proofs.SameName
import LuaClasses.Proofs.Transitivity
import LuaClasses.Proofs.Cells
import LuaClasses.Proofs.Lifetime
import LuaClasses.Proofs.Absence
import LuaClasses.Proofs.Truncation
import LuaClasses.Proofs.ProjectText
import LuaClasses.Proofs.Search
import LuaClasses.Proofs.Visibility
import LuaClasses.Proofs.Admission
import LuaClasses.Proofs.Loading
import LuaClasses.Proofs.Leniency
import LuaClasses.Proofs.EntryPoints
import LuaClasses.Proofs.Folding
import LuaClasses.Proofs.Identities
import LuaClasses.Proofs.HexText
import LuaClasses.Proofs.Discipline
import LuaClasses.Proofs.Lowering
import LuaClasses.Proofs.Budget
import LuaClasses.Proofs.Varint
