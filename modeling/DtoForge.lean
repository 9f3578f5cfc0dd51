import DtoForge.Console.Run
import DtoForge.Console.Terminal
import DtoForge.Extraction
import DtoForge.Generator.Generate
import DtoForge.Loading.Collection
import DtoForge.Log.Setup
import DtoForge.Main
import DtoForge.Packaging.Archive
import DtoForge.Packaging.Order
import DtoForge.Packaging.Render
import DtoForge.Packaging.Zip
import DtoForge.Registry
import DtoForge.Proofs.Extraction.Completion
import DtoForge.Proofs.Extraction.Independence
import DtoForge.Proofs.Extraction.References
import DtoForge.Proofs.Naming.Sanitizer
import DtoForge.Proofs.Packaging.Imports
import DtoForge.Proofs.Generator.Source
import DtoForge.Proofs.Generator.Surface
import DtoForge.Proofs.Schema.Identity
import DtoForge.Proofs.Generator.Features
import DtoForge.Proofs.Naming.Casing
import DtoForge.Proofs.Naming.Identifier
import DtoForge.Proofs.Generator.Names
import DtoForge.Proofs.Registry.Histories
import DtoForge.Proofs.Options.Layers
import DtoForge.Proofs.Registry.Refusals
import DtoForge.Proofs.Registry.Shadowing
import DtoForge.Proofs.Unicode.Caseless
import DtoForge.Proofs.Options.Precedence
import DtoForge.Proofs.Options.Settings
import DtoForge.Proofs.Naming.Kept
import DtoForge.Proofs.Extraction.Origins
import DtoForge.Proofs.Extraction.Documents
import DtoForge.Proofs.Files.Path
import DtoForge.Proofs.Packaging.FileNames
import DtoForge.Proofs.Packaging.Exploration
import DtoForge.Proofs.Packaging.Rendering
import DtoForge.Proofs.Packaging.Selection
import DtoForge.Proofs.Packaging.Cycles
import DtoForge.Proofs.Packaging.Stability
import DtoForge.Proofs.Packaging.Collisions
import DtoForge.Proofs.Json.RoundTrip
import DtoForge.Proofs.Options.Dictionary
import DtoForge.Proofs.Options.Saving
import DtoForge.Proofs.Console.Output
import DtoForge.Proofs.Console.Agreement
import DtoForge.Proofs.Text.Utf8
import DtoForge.Proofs.Options.Refusals
import DtoForge.Proofs.Json.Shape
import DtoForge.Proofs.Endpoint
import DtoForge.Proofs.Endpoint.Stored
import DtoForge.Proofs.Postman.Import
import DtoForge.Proofs.Loading.Documents
import DtoForge.Proofs.Loading.Collections
import DtoForge.Proofs.Loading.Extraction
import DtoForge.Proofs.Text.Literal
import DtoForge.Proofs.Generator.Layout
import DtoForge.Proofs.Generator.WireNames
import DtoForge.Proofs.Text.Quotation
import DtoForge.Proofs.Generator.Tags
import DtoForge.Proofs.Generator.Keys
import DtoForge.Proofs.Generator.Members
import DtoForge.Proofs.Naming.Camel
import DtoForge.Proofs.Generator.Accessors
import DtoForge.Proofs.Naming.Forms
import DtoForge.Proofs.Generator.Methods
import DtoForge.Proofs.Generator.Parameters
import DtoForge.Proofs.Generator.Guards
import DtoForge.Proofs.Python.TypeExpr
import DtoForge.Proofs.Python.Module
import DtoForge.Proofs.Python.Imports
import DtoForge.Proofs.Endpoint.Bodies
import DtoForge.Proofs.Extraction.Bodies
import DtoForge.Proofs.Postman.Conversion
import DtoForge.Proofs.Postman.Paths
import DtoForge.Proofs.Postman.Folders
import DtoForge.Proofs.Naming.Snake
import DtoForge.Proofs.Generator.Mentions
import DtoForge.Proofs.Generator.Preview
