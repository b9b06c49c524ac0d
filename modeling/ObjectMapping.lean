import ObjectMapping.Hash.XXH3
import ObjectMapping.Text.SnakeCase
import ObjectMapping.Document.Element
import ObjectMapping.Document.Meta
import ObjectMapping.Document.Defaults
import ObjectMapping.Error
import ObjectMapping.TypeRef
import ObjectMapping.Naming
import ObjectMapping.Reflection
import ObjectMapping.Schema.Column
import ObjectMapping.Schema.Table
import ObjectMapping.Mapping.Cascade
import ObjectMapping.Mapping.Value
import ObjectMapping.Mapping.Entity
import ObjectMapping.Mapping.Collection
import ObjectMapping.Mapping.Definition
import ObjectMapping.Query.Basic
import ObjectMapping.Document.Tag
import ObjectMapping.Document.Scope
import ObjectMapping.Registry.Pass
import ObjectMapping.Registry.Basic
import ObjectMapping.Registry.Hierarchy
import ObjectMapping.Binding.Monad
import ObjectMapping.Binding.Columns
import ObjectMapping.Binding.SimpleValue
import ObjectMapping.Binding.Association
import ObjectMapping.Binding.ForeignKey
import ObjectMapping.Binding.Property
import ObjectMapping.Binding.Filter
import ObjectMapping.Binding.Owner
import ObjectMapping.Binding.Collection
import ObjectMapping.Binding.Component
import ObjectMapping.Binding.Identifier
import ObjectMapping.Binding.Query
import ObjectMapping.Binding.Key
import ObjectMapping.Binding.Header
import ObjectMapping.Binding.Join
import ObjectMapping.Binding.Class
import ObjectMapping.Binding.Contents
import ObjectMapping.Binding.Document
import ObjectMapping.Session
import ObjectMapping.Toml.Value
import ObjectMapping.Toml.Text
import ObjectMapping.Toml.Document
import ObjectMapping.Config
import ObjectMapping.Configuration
import ObjectMapping.Proofs.Run
import ObjectMapping.Proofs.Skeleton
import ObjectMapping.Proofs.Steady
import ObjectMapping.Proofs.Quiet
import ObjectMapping.Proofs.SideWrite
import ObjectMapping.Proofs.Preparation
import ObjectMapping.Proofs.Growth
import ObjectMapping.Proofs.Opening
import ObjectMapping.Proofs.Body
import ObjectMapping.Proofs.Deferred
import ObjectMapping.Proofs.Moves
import ObjectMapping.Proofs.Queue
import ObjectMapping.Proofs.Reachable
import ObjectMapping.Proofs.Custody
import ObjectMapping.Proofs.Refusal
import ObjectMapping.Proofs.Fixpoint
import ObjectMapping.Proofs.Workload
import ObjectMapping.Proofs.Declaration
import ObjectMapping.Proofs.Face
import ObjectMapping.Proofs.ContentsRun
import ObjectMapping.Proofs.Enlistment
import ObjectMapping.Proofs.Shown
import ObjectMapping.Proofs.Backrefs
import ObjectMapping.Proofs.Exactness
import ObjectMapping.Proofs.Shadowing
import ObjectMapping.Proofs.Forest
import ObjectMapping.Proofs.Outline
import ObjectMapping.Proofs.Registration
import ObjectMapping.Proofs.ArrivalOrder
import ObjectMapping.Proofs.Grounding
import ObjectMapping.Proofs.TableWrites
import ObjectMapping.Proofs.RegistryWrites
import ObjectMapping.Proofs.Upkeep
import ObjectMapping.Proofs.Leading
import ObjectMapping.Proofs.ValueBinding
import ObjectMapping.Proofs.ComponentBinding
import ObjectMapping.Proofs.EntityBinding
import ObjectMapping.Proofs.BodyBinding
import ObjectMapping.Proofs.ContentsBinding
import ObjectMapping.Proofs.Driven
import ObjectMapping.Proofs.Coherence
import ObjectMapping.Proofs.ForeignKeys
import ObjectMapping.Proofs.Tracing
import ObjectMapping.Proofs.TracedWrites
import ObjectMapping.Proofs.PropertyTracing
import ObjectMapping.Proofs.Stocking
import ObjectMapping.Proofs.StockingContents
import ObjectMapping.Proofs.EntityTracing
import ObjectMapping.Proofs.ContentsTracing
import ObjectMapping.Proofs.SessionTracing
import ObjectMapping.Proofs.Cascades
import ObjectMapping.Proofs.Resolution
import ObjectMapping.Proofs.Targets
import ObjectMapping.Proofs.AlternateKeys
import ObjectMapping.Proofs.Permanence
import ObjectMapping.Proofs.Imports
import ObjectMapping.Proofs.Redefinition
import ObjectMapping.Proofs.Deferral
import ObjectMapping.Proofs.Standing
import ObjectMapping.Proofs.Persisters
import ObjectMapping.Proofs.SharedTables
import ObjectMapping.Proofs.Stores
import ObjectMapping.Proofs.Metas
import ObjectMapping.Proofs.AnnotatedRegistry
import ObjectMapping.Proofs.AnnotatedBinding
import ObjectMapping.Proofs.AnnotatedContents
import ObjectMapping.Proofs.PrivateMetas
import ObjectMapping.Proofs.MetaDescent
import ObjectMapping.Proofs.PassOrder
import ObjectMapping.Proofs.RequiredKeys
import ObjectMapping.Proofs.CollectionOwners
import ObjectMapping.Proofs.RepeatedColumns
import ObjectMapping.Proofs.IdentifierMappers
import ObjectMapping.Proofs.OneToOnes
import ObjectMapping.Proofs.NaturalIdKeys
import ObjectMapping.Proofs.NaturalIdColumns
import ObjectMapping.Proofs.MetaMerge
import ObjectMapping.Proofs.DocumentOrder
import ObjectMapping.Proofs.PropertyTraits
import ObjectMapping.Proofs.RootOrigins
import ObjectMapping.Proofs.RootIdentifiers
import ObjectMapping.Proofs.GeneratedProperties
import ObjectMapping.Proofs.TableIdentity
import ObjectMapping.Proofs.MixedColumns
import ObjectMapping.Proofs.RootSpecifications
import ObjectMapping.Proofs.SubselectLoading
import ObjectMapping.Proofs.ResultColumns
import ObjectMapping.Proofs.SuperclassChains
