import DaqServer.Scan.Accumulator
import DaqServer.Scan.Plan

/-!
# Readings of a scan

Samples are sorted by the channel that they name and reduced channel by channel. The result is seen
as raw words, as counts or as volts.
-/

namespace DaqServer

structure ChannelReading where
  channel : UInt8
  /-- The reduced count, zero without samples. -/
  count : UInt16
  /-- Metadata of the first sample, none without samples. -/
  metadata : Option UInt32
  deriving DecidableEq, Repr

namespace ChannelReading

def raw (r : ChannelReading) : UInt32 :=
  match r.metadata with
  | some metadata => metadata ||| r.count.toUInt32
  | none => Sample.noData

def volts (r : ChannelReading) : Volts := Volts.ofSample r.raw

end ChannelReading

structure Readings where
  plan : ScanPlan
  channels : List ChannelReading

namespace Readings

def reading (plan : ScanPlan) (samples : List UInt32) (channel : UInt8) : ChannelReading :=
  let own := samples.filter fun raw => Sample.channel raw == channel
  let acc := Accumulator.empty.pushAll plan.oversample own
  ⟨channel, acc.reduce.getD 0, acc.metadata⟩

def ofSamples (plan : ScanPlan) (samples : List UInt32) : Readings :=
  ⟨plan, plan.channels.map (reading plan samples)⟩

def raw (r : Readings) : List UInt32 := r.channels.map ChannelReading.raw

def counts (r : Readings) : List UInt16 := r.channels.map ChannelReading.count

def volts (r : Readings) : List Volts := r.channels.map ChannelReading.volts

theorem length_ofSamples (plan : ScanPlan) (samples : List UInt32) :
    (ofSamples plan samples).channels.length = plan.channelCount := by
  simp [ofSamples, ScanPlan.length_channels]

end Readings

end DaqServer
