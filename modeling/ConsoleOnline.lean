import ConsoleOnline.Document.Friends
import ConsoleOnline.Document.Presences
import ConsoleOnline.Document.Session
import ConsoleOnline.Document.Users
import ConsoleOnline.Image.Fieldwise
import ConsoleOnline.Inspect.Command
import ConsoleOnline.Main
import ConsoleOnline.Stored
import ConsoleOnline.Text.RoundTrip
import ConsoleOnline.Proofs.Numerals
import ConsoleOnline.Proofs.Session.Operations
import ConsoleOnline.Proofs.Text.Trim
import ConsoleOnline.Proofs.HexNumber
import ConsoleOnline.Proofs.Spelling
import ConsoleOnline.Proofs.MacAddress
import ConsoleOnline.Proofs.Identifiers
import ConsoleOnline.Proofs.SessionId
import ConsoleOnline.Proofs.FileTime
import ConsoleOnline.Proofs.Json.ReadBack
import ConsoleOnline.Proofs.Session.Document
import ConsoleOnline.Proofs.Session.Reachable
import ConsoleOnline.Proofs.Session.Refusals
import ConsoleOnline.Proofs.Session.Lifecycle
import ConsoleOnline.Proofs.Session.Listing
import ConsoleOnline.Proofs.Session.Undo
import ConsoleOnline.Proofs.Session.Batches
import ConsoleOnline.Proofs.Session.Modify
import ConsoleOnline.Proofs.Session.Details
import ConsoleOnline.Proofs.Image.RoundTrip
import ConsoleOnline.Proofs.Text.LongestFit
import ConsoleOnline.Proofs.Text.Decoding
import ConsoleOnline.Proofs.Gamertag
import ConsoleOnline.Proofs.TextFit
import ConsoleOnline.Proofs.Image.Records
import ConsoleOnline.Proofs.Image.Reload
import ConsoleOnline.Proofs.Text.Surrogates
import ConsoleOnline.Proofs.Presence.Publication
import ConsoleOnline.Proofs.Friend.Invite
import ConsoleOnline.Proofs.Friend.Document
import ConsoleOnline.Proofs.Image.FindUsers
import ConsoleOnline.Proofs.Image.Fieldwise
import ConsoleOnline.Proofs.Image.Sequence
import ConsoleOnline.Proofs.Lookup.Answer
import ConsoleOnline.Proofs.Friend.FirstSight
import ConsoleOnline.Proofs.Friend.Keys
import ConsoleOnline.Proofs.Friend.Shown
import ConsoleOnline.Proofs.Friend.Repeated
import ConsoleOnline.Proofs.Image.GamertagField
import ConsoleOnline.Proofs.Lookup.FirstGamertag
import ConsoleOnline.Proofs.Lookup.Request
import ConsoleOnline.Proofs.Lookup.RequestDocument
import ConsoleOnline.Proofs.Settings
import ConsoleOnline.Proofs.Context
import ConsoleOnline.Proofs.Image.Refusals
import ConsoleOnline.Proofs.Dump
