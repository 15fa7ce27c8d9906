import PacketWire.Config.Source
import PacketWire.Config.ToText
import PacketWire.Format.Length
import PacketWire.Format.Transcoding
import PacketWire.Format.Writing
import PacketWire.Log.Logger
import PacketWire.Mailbox
import PacketWire.Proofs.Config.RoundTrip
import PacketWire.Proofs.Format.Canonical
import PacketWire.Proofs.Format.Grammar
import PacketWire.Proofs.Format.RoundTrip
import PacketWire.Proofs.Format.Writing
import PacketWire.Proofs.Mailbox.Session
import PacketWire.Proofs.Base64.Joining
import PacketWire.Proofs.Format.Joining
import PacketWire.Proofs.Mailbox.Joining
import PacketWire.Proofs.Format.Truncation
import PacketWire.Proofs.Format.Length
import PacketWire.Proofs.Mailbox.Exchange
import PacketWire.Proofs.Format.Separation
import PacketWire.Proofs.Format.Transcoding
import PacketWire.Proofs.Mailbox.Overfull
import PacketWire.Proofs.Format.EncodedLength
import PacketWire.Proofs.Choice
import PacketWire.Proofs.Mailbox.Outcomes
import PacketWire.Proofs.Config.Environment
import PacketWire.Proofs.Toml.Distinct
import PacketWire.Proofs.Config.OfText
import PacketWire.Proofs.Format.Offering
import PacketWire.Proofs.Base64.Diagnosis
import PacketWire.Proofs.Format.LineBreaks
import PacketWire.Proofs.Format.Diagnosis
import PacketWire.Proofs.Format.TextChannel
import PacketWire.Proofs.Config.Checking
import PacketWire.Proofs.Config.Variables
import PacketWire.Proofs.Config.Sections
import PacketWire.Proofs.Config.Agreement
